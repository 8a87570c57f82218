import DeviceProvisioning.Proofs.Connection.Past
import DeviceProvisioning.Proofs.Connection.Notices

/-!
# Where messages come from

Among the notices of a manager are the messages that its link brings.  `Report` is a notice together
with the input that has led to it, and so with the link that this came from.  A message should come
from the connection that was announced last, and before the end of this connection is announced
(`Report.Current`).

The first holds.  What a link reports is passed on when it bears the number of the latest attempt,
and this number has changed by the time another connection is announced.  The second does not quite.
The number is still the same when a connection has ended and no other attempt has been made, so what
a link brings after its end is passed on as well, although the owner has been told by then that
there is no connection.  The link is over in that case (`Course.messages_of_connections`).
-/

namespace DeviceProvisioning.Connection

open Time (Millis)

/-- What is told is what effects notify of. -/
theorem mem_told {es : List Effect} {notice : Notice} : notice ∈ told es ↔ .notify notice ∈ es := by
  refine List.mem_filterMap.trans ⟨fun ⟨e, hmem, he⟩ => ?_, fun hmem => ⟨_, hmem, rfl⟩⟩
  cases e <;> cases he
  exact hmem

/-! ## Reports -/

/-- The link that an input comes from: the one that an attempt has yielded, or the one that reports
something. -/
def Course.source? (c : Course) : Input → Option LinkId
  | .completion (.dialled _ (.ok link)) => some link
  | .completion (.link generation _) => c.links.lookup generation
  | _ => none

/-- **A notice as it is told**: upon an input, in a course. -/
structure Report where
  course : Course
  input : Input
  notice : Notice

/-- What effects tell upon an input. -/
def Course.telling (c : Course) (input : Input) (es : List Effect) : List Report :=
  (told es).map fun notice => ⟨c, input, notice⟩

@[simp] theorem Course.telling_append (c : Course) (input : Input) (es es' : List Effect) :
    c.telling input (es ++ es') = c.telling input es ++ c.telling input es' := by
  simp [telling]

namespace Report

/-- The link that the input came from. -/
def link? (r : Report) : Option LinkId :=
  r.course.source? r.input

/-- The link that the input came from was over. -/
def Late (r : Report) : Prop :=
  ∃ l ∈ r.course.links, r.link? = some l.2 ∧ r.course.Over l.1 l.2

/-- **The connection over a link was announced last**: none of some states has been told of
since. -/
def Current (link : LinkId) (states : List State) (reports : List Report) : Prop :=
  ∃ before announcement between, reports = before ++ announcement :: between ∧
    announcement.notice = .stateChanged .connected ∧ announcement.link? = some link ∧
    ∀ r ∈ between, ∀ s ∈ states, r.notice ≠ .stateChanged s

variable {link : LinkId} {states : List State} {reports : List Report}

/-- The announcement itself. -/
theorem Current.announced {r : Report} (hn : r.notice = .stateChanged .connected)
    (hl : r.link? = some link) : Current link states (reports ++ [r]) :=
  ⟨reports, r, [], rfl, hn, hl, by simp⟩

/-- What is told of no such state leaves the connection current. -/
theorem Current.telling {c : Course} {input : Input} {es : List Effect}
    (h : Current link states reports) (hes : ∀ s ∈ states, .stateChanged s ∉ told es) :
    Current link states (reports ++ c.telling input es) := by
  obtain ⟨before, announcement, between, rfl, hn, hl, hbetween⟩ := h
  refine ⟨before, announcement, between ++ c.telling input es, by simp, hn, hl, ?_⟩
  intro r hr s hs
  rcases List.mem_append.1 hr with hr | hr
  · exact hbetween r hr s hs
  · obtain ⟨notice, hmem, rfl⟩ := List.mem_map.1 hr
    rintro rfl
    exact hes s hs hmem

/-- A connection is not current when the last that was told is its end. -/
theorem Current.not_last {r : Report} {s : State} (h : Current link states (reports ++ [r]))
    (hs : s ∈ states) (hne : s ≠ .connected) : r.notice ≠ .stateChanged s := by
  obtain ⟨before, announcement, between, heq, hn, -, hbetween⟩ := h
  rcases List.eq_nil_or_concat between with rfl | ⟨between, last, rfl⟩
  · obtain ⟨-, hr⟩ := List.append_inj' heq rfl
    rw [List.singleton_inj.1 hr, hn]
    exact fun hs => hne (Notice.stateChanged.inj hs).symm
  · rw [List.concat_eq_append, ← List.cons_append, ← List.append_assoc] at heq
    obtain ⟨-, hr⟩ := List.append_inj' heq rfl
    rw [List.singleton_inj.1 hr]
    exact hbetween last (by simp) s hs

end Report

open Report (Current)

/-! ## What a step tells -/

namespace Manager
variable {m m₁ m' : Manager} {c : Course} {input : Input} {es es' before after : List Effect}
  {queue : List Order} {now : Millis} {o : Order} {reports : List Report}

/-- The end of a connection is all that is told when it ends. -/
theorem of_told_settling {notice : Notice} {why : Option Failure}
    (h : notice ∈ told (m.settling why)) :
    notice = .stateChanged .disconnected ∨ ∃ failure, notice = .lost failure := by
  simp only [settling, told_cons, told_append, told_failing, List.append_nil, List.mem_append,
    Effect.notice?, Option.toList_none, List.nil_append] at h
  rcases h with hentering | hreporting
  · unfold entering at hentering
    split at hentering
    · cases hentering
    · exact .inl (List.mem_singleton.1 hentering)
  · unfold reporting at hreporting
    split at hreporting
    · cases hreporting
    · cases hreporting
    · exact .inr ⟨_, List.mem_singleton.1 hreporting⟩
    · cases hreporting

/-- The last step tells nothing. -/
theorem told_shutDown (m : Manager) :
    told (m.closing ++ m.failing Turn.gone ++ m.answering (.error Turn.gone)
      ++ m.deferred.map fun o => .answer o.ticket (.error Turn.gone)) = [] := by
  have hrefused : told (m.deferred.map fun o => Effect.answer o.ticket (.error Turn.gone)) = [] := by
    refine List.eq_nil_iff_forall_not_mem.2 fun notice hmem => ?_
    simpa using mem_told.1 hmem
  simp [hrefused]

/-- What has let a rotation go on tells nothing. -/
theorem told_release (hr : Release m input es) : told es = [] := by
  cases hr with
  | tornDown => rfl
  | expired => exact told_closing

/-- An order tells of a change at most. -/
theorem of_told_taking (ht : Taking now m o m' es) {notice : Notice} (h : notice ∈ told es) :
    ∃ s, notice = .stateChanged s := by
  cases ht with
  | connecting | disconnecting | rotating => exact ⟨_, by simpa [attempting, Effect.notice?] using h⟩
  | _ => simp [Effect.notice?] at h

/-- **A message is told when the link of the latest attempt brings it**, and nothing else is told
then. -/
theorem told_message {topic : String} {payload : Text.Octets}
    (h : .message topic payload ∈ told (m.step now input).effects) :
    input = .completion (.link m.generation (.message topic payload)) ∧
      told (m.step now input).effects = [.message topic payload] := by
  -- that no orders are queued goes along, since those taken afterwards could tell of a change
  have key := m.step_induction now input
    (P := fun _ es queue => .message topic payload ∈ told es →
      input = .completion (.link m.generation (.message topic payload)) ∧
        told es = [.message topic payload] ∧ queue = [])
    (fun m' es queue ho hmem => ?_) fun m₁ es o queue m₂ es' h₁ ht hmem => ?_
  · obtain ⟨hinput, htold, -⟩ := key h
    exact ⟨hinput, htold⟩
  · have hsettling {m : Manager} {why : Option Failure} :
        .message topic payload ∉ told (m.settling why) := fun hmem => by
      rcases of_told_settling hmem with heq | ⟨failure, heq⟩ <;> cases heq
    have hentering : .message topic payload ∉ told (m.entering .connected) := by
      unfold entering
      split <;> simp [Effect.notice?]
    cases ho with
    | message topic' payload' =>
      obtain ⟨rfl, rfl⟩ : topic = topic' ∧ payload = payload' := by
        simpa [Effect.notice?] using hmem
      exact ⟨rfl, rfl, rfl⟩
    | shutDown =>
      rw [told_shutDown] at hmem
      cases hmem
    | rotated p hr | stranded hr =>
      simp [told_release hr, attempting, Effect.notice?, hsettling] at hmem
    | _ => simp [Effect.notice?, hsettling, hentering] at hmem
  · rw [told_append] at hmem
    rcases List.mem_append.1 hmem with hold | hnew
    · exact absurd (h₁ hold).2.2 (List.cons_ne_nil o queue)
    · obtain ⟨s, heq⟩ := of_told_taking ht hnew
      cases heq

/-- **No connection begins** under the same number, and one that there is afterwards has not
ended. -/
structure Lasts (m m' : Manager) (es : List Effect) : Prop where
  generation : m'.generation = m.generation
  begins : ∀ s ∈ [State.connecting, .connected], .stateChanged s ∉ told es
  ends : m'.state ≠ .disconnected →
    m.state ≠ .disconnected ∧ .stateChanged .disconnected ∉ told es

/-- The state stays as it is, and nothing is told of it. -/
theorem Lasts.same (hg : m'.generation = m.generation) (hs : m'.state = m.state)
    (htold : ∀ s, .stateChanged s ∉ told es) : m.Lasts m' es where
  generation := hg
  begins s _ := htold s
  ends hne := ⟨hs ▸ hne, htold _⟩

/-- Without a connection afterwards, the beginning of one is all that may not be told. -/
theorem Lasts.ended (hg : m'.generation = m.generation) (hs : m'.state = .disconnected)
    (htold : ∀ s, .stateChanged s ∈ told es → s = .disconnecting ∨ s = .disconnected) :
    m.Lasts m' es where
  generation := hg
  begins s hmem hnew := by rcases htold s hnew with rfl | rfl <;> simp at hmem
  ends hne := absurd hs hne

/-- The end of a connection, in whatever way it comes. -/
theorem Lasts.settled {rest : List Effect}
    (hrest : ∀ s, .stateChanged s ∈ told rest → s = .disconnecting) (m₁ : Manager)
    (why : Option Failure) : m.Lasts m.settled (rest ++ m₁.settling why) := by
  refine .ended rfl rfl fun s hmem => ?_
  rw [told_append] at hmem
  rcases List.mem_append.1 hmem with hold | hnew
  · exact .inl (hrest s hold)
  · rcases of_told_settling hnew with heq | ⟨failure, heq⟩
    · exact .inr (Notice.stateChanged.inj heq)
    · cases heq

/-- **An order makes an attempt, or no connection begins with it.** -/
theorem lasts_taking (ht : Taking now m o m' es) :
    m.generation < m'.generation ∨ m.Lasts m' es := by
  cases ht with
  | connecting => exact .inl (Nat.lt_succ_self _)
  | disconnecting link hs =>
    exact .inr ⟨rfl, by simp [Effect.notice?], fun _ => by simp [hs, Effect.notice?]⟩
  | rotating link credential hs =>
    exact .inr ⟨m.renewed_generation credential, by simp [Effect.notice?],
      fun _ => by simp [hs, Effect.notice?]⟩
  | _ => exact .inr (.same rfl rfl fun s => by simp [Effect.notice?])

/-- **What an input leads to by itself**: a link of the latest attempt, another attempt, or no
beginning of a connection. -/
theorem lasts_opening {returned : Option Effect}
    (h : m.Tended (before ++ returned.toList ++ after)) (he : input.Ends returned)
    (ho : Opening m input m' es queue) :
    (∃ link p, input = .completion (.dialled m.generation (.ok link)) ∧
        returned = some (.dial m.generation p) ∧ m'.generation = m.generation ∧
        told es = [.stateChanged .connected]) ∨
      input.link? = none ∧ (m.generation < m'.generation ∨ m.Lasts m' es) := by
  cases ho with
  | order | lapsed | acknowledged | undelivered | message =>
    exact .inr ⟨rfl, .inr (.same rfl rfl fun s => by simp [Effect.notice?])⟩
  | established link =>
    obtain ⟨p, rfl⟩ := he.of_dialled
    have htold : told (m.entering .connected) = [.stateChanged .connected] := by
      obtain ⟨-, hs | hs⟩ := (h.cons_of_some.only rfl).1.connects
      · exact told_entering (by simp [hs])
      · exact told_entering (by simp [hs])
    exact .inl ⟨link, p, rfl, rfl, rfl, by simp [htold, Effect.notice?]⟩
  | abandoned generation link hne =>
    -- the attempt that has come back is the one that a running manager waits for
    obtain ⟨p, rfl⟩ := he.of_dialled
    exact absurd (h.cons_of_some.only rfl).1.dial_inv.1 hne
  | refused error =>
    have htold (s : State) : .stateChanged s ∉ told [.count .connectionFailed] := by
      simp [Effect.notice?]
    exact .inr ⟨rfl, .inr (.settled (fun s hmem => absurd hmem (htold s)) m _)⟩
  | tornDown | closed =>
    have htold (s : State) : .stateChanged s ∉ told [] := List.not_mem_nil
    exact .inr ⟨rfl, .inr (.settled (fun s hmem => absurd hmem (htold s)) m _)⟩
  | failed error hs =>
    have htold (s : State)
        (hmem : .stateChanged s ∈ told (.notify (.stateChanged .disconnecting) :: m.closing)) :
        s = .disconnecting := by simpa [Effect.notice?] using hmem
    exact .inr ⟨rfl, .inr (.settled htold { m with state := .disconnecting } _)⟩
  | rotated p hr => exact .inr ⟨by cases hr <;> rfl, .inl (Nat.lt_succ_self _)⟩
  | stranded hr =>
    refine .inr ⟨by cases hr <;> rfl, .inr (.settled (fun s hmem => ?_) { m with inFlight := [] } _)⟩
    simp [told_release hr] at hmem
  | ignored hig =>
    refine .inr ⟨?_, .inr (.same rfl rfl fun s => List.not_mem_nil)⟩
    unfold Input.link?
    split
    · exact absurd hig id
    · rfl
  | shutDown =>
    refine .inr ⟨rfl, .inr (.ended rfl rfl fun s hmem => ?_)⟩
    rw [told_shutDown] at hmem
    cases hmem

/-- A manager without a connection has no link. -/
theorem Standing.link_of_disconnected {awaited : List Effect} (h : m.Standing awaited)
    (hs' : m.state = .disconnected) : m.link = none := by
  cases h with
  | disconnected hs hl => exact hl
  | _ => simp_all

/-! ## The connection of a manager -/

/-- **The link of the latest attempt, if there is one, was announced last.**  Its connection has
not ended while the manager has another state than without a connection. -/
structure Announces (m : Manager) (links : List (Nat × LinkId)) (reports : List Report) : Prop where
  earlier : ∀ l ∈ links, l.1 ≤ m.generation
  latest : ∀ link, (m.generation, link) ∈ links → Current link [.connecting, .connected] reports
  lasting : ∀ link, (m.generation, link) ∈ links → m.state ≠ .disconnected →
    Current link [.connecting, .connected, .disconnected] reports

namespace Announces
variable {links : List (Nat × LinkId)}

theorem lasts (h : m.Announces links reports) (hl : m.Lasts m' es) :
    m'.Announces links (reports ++ c.telling input es) where
  earlier l hmem := by
    rw [hl.generation]
    exact h.earlier l hmem
  latest link hmem := by
    rw [hl.generation] at hmem
    exact (h.latest link hmem).telling hl.begins
  lasting link hmem hne := by
    rw [hl.generation] at hmem
    obtain ⟨hstate, hends⟩ := hl.ends hne
    refine (h.lasting link hmem hstate).telling fun s hs => ?_
    rcases List.mem_append.1 (show s ∈ [.connecting, .connected] ++ [.disconnected] from hs)
      with hs | hs
    · exact hl.begins s hs
    · exact List.mem_singleton.1 hs ▸ hends

/-- An attempt that has just been made has no link. -/
theorem attempted (h : m.Announces links reports) (hg : m.generation < m'.generation)
    (reports' : List Report) : m'.Announces links reports' := by
  have hnone (link : LinkId) : (m'.generation, link) ∉ links := fun hmem =>
    Nat.not_le.2 hg (h.earlier _ hmem)
  constructor
  · intro l hmem
    exact Nat.le_trans (h.earlier l hmem) (Nat.le_of_lt hg)
  · intro link hmem
    exact absurd hmem (hnone link)
  · intro link hmem
    exact absurd hmem (hnone link)

/-- The link that an attempt has yielded is announced. -/
theorem established {link : LinkId} (h : m.Announces links reports)
    (hnew : m.generation ∉ links.map Prod.fst) (hg : m'.generation = m.generation) {r : Report}
    (hn : r.notice = .stateChanged .connected) (hl : r.link? = some link) :
    m'.Announces (links ++ [(m.generation, link)]) (reports ++ [r]) := by
  have honly (link' : LinkId) (hmem : (m'.generation, link') ∈ links ++ [(m.generation, link)]) :
      r.link? = some link' := by
    rcases List.mem_append.1 hmem with hold | hmem
    · exact absurd (List.mem_map_of_mem hold) (hg ▸ hnew)
    · rw [hl, (Prod.mk.inj (List.mem_singleton.1 hmem)).2]
  constructor
  · intro l hmem
    rw [hg]
    rcases List.mem_append.1 hmem with hold | hmem
    · exact h.earlier l hold
    · exact Nat.le_of_eq (congrArg Prod.fst (List.mem_singleton.1 hmem))
  · intro link' hmem
    exact .announced hn (honly link' hmem)
  · intro link' hmem _
    exact .announced hn (honly link' hmem)

/-- **A step keeps the announcements in order.** -/
theorem step {returned : Option Effect} (now : Millis) (h : m.Announces c.links reports)
    (hh : m.Holds c) (ht : m.Tended c.outstanding) (he : input.Ends returned)
    (split : c.outstanding = before ++ returned.toList ++ after) :
    (m.step now input).manager.Announces (c.links ++ input.link?.toList)
      (reports ++ c.telling input (m.step now input).effects) := by
  refine m.step_induction now input
    (P := fun m' es _ => m'.Announces (c.links ++ input.link?.toList) (reports ++ c.telling input es))
    (fun m' es queue ho => ?_) fun m₁ es o queue m₂ es' h₁ htake => ?_
  · rcases lasts_opening (split ▸ ht) he ho with ⟨link, p, rfl, rfl, hg, htold⟩ | ⟨hlink, hor⟩
    · -- the attempt was outstanding, so there is no other link with its number
      have hnew := hh.awaited m.generation p (by rw [split]; simp)
      rw [show c.telling _ es = [⟨c, _, .stateChanged .connected⟩] by rw [Course.telling, htold]; rfl]
      exact h.established hnew hg rfl rfl
    · rw [hlink, Option.toList_none, List.append_nil]
      rcases hor with hattempt | hlasts
      · exact h.attempted hattempt _
      · exact h.lasts hlasts
  · rcases lasts_taking htake with hattempt | hlasts
    · exact h₁.attempted hattempt _
    · rw [Course.telling_append, ← List.append_assoc]
      exact h₁.lasts hlasts

end Announces

end Manager

/-! ## Courses -/

namespace Course
variable {c : Course} {reports : List Report}

/-- **What has been told in a course**, each notice with the input that has led to it. -/
inductive Reports : Course → List Report → Prop where
  | start (patience : Millis) (ids : RequestId.Source) :
    Reports { manager := { patience, ids } } []
  | takes {c : Course} {reports : List Report} (h : Reports c reports) (now : Millis)
      (input : Input) (e : Option Effect) (before after : List Effect)
      (running : c.stopped = false) (ends : input.Ends e) (admits : c.Admits input)
      (split : c.outstanding = before ++ e.toList ++ after) :
    Reports (c.follow now input (before ++ after))
      (reports ++ c.telling input (c.manager.step now input).effects)
  | other {c c' : Course} {reports : List Report} (h : Reports c reports) (step : Step c c')
      (own : c'.inputs = c.inputs) : Reports c' reports

/-- In every course something has been told, or nothing. -/
theorem exists_reports (h : Reachable c) : ∃ reports, c.Reports reports := by
  induction h with
  | start patience ids => exact ⟨[], .start patience ids⟩
  | @step c c' hr hs ih =>
    obtain ⟨reports, hreports⟩ := ih
    have hother (own : c'.inputs = c.inputs) : ∃ reports, c'.Reports reports :=
      ⟨reports, hreports.other hs own⟩
    cases hs with
    | takes now input e before after running ends admits split =>
      exact ⟨_, hreports.takes now input e before after running ends admits split⟩
    | subscribed | unsubscribed | late => exact hother rfl

namespace Reports

theorem reachable (h : c.Reports reports) : Reachable c := by
  induction h with
  | start patience ids => exact .start patience ids
  | takes h now input e before after running ends admits split ih =>
    exact ih.step (.takes now input e before after running ends admits split)
  | other h step own ih => exact ih.step step

/-- What is told are the notices in the record. -/
theorem notices (h : c.Reports reports) : reports.map Report.notice = told c.record := by
  induction h with
  | start patience ids => rfl
  | @takes c reports h now input e before after running ends admits split ih =>
    show _ = told (c.record ++ _)
    rw [List.map_append, ih, told_append, telling, List.map_map]
    exact congrArg _ (List.map_id _)
  | @other c c' reports h step own ih =>
    rw [ih]
    cases step with
    | takes => simp [follow] at own
    | subscribed | unsubscribed => simp [Effect.notice?]
    | late => rfl

/-- **The connection of a manager was announced last.** -/
theorem announces (h : c.Reports reports) (running : c.stopped = false) :
    c.manager.Announces c.links reports := by
  induction h with
  | start patience ids => exact ⟨by simp, by simp, by simp⟩
  | @takes c reports h now input e before after hrun ends admits split ih =>
    exact (ih hrun).step now (holds h.reachable hrun) (tended h.reachable hrun) ends split
  | @other c c' reports h step own ih =>
    obtain ⟨es, haside⟩ := step.aside own
    rw [haside.manager, haside.links]
    exact ih (haside.stopped ▸ running)

end Reports

/-- A manager without a connection has had all its links, and they are over. -/
theorem over_of_disconnected (h : Reachable c) (running : c.stopped = false)
    (hs : c.manager.state = .disconnected) : ∀ l ∈ c.links, c.Over l.1 l.2 := by
  have hnone := (tended h running).standing.link_of_disconnected hs
  intro l hl
  rcases (holds h running).held l hl with ⟨-, hlink⟩ | hover
  · rw [hnone] at hlink
    cases hlink
  · exact hover

/-- **A message that a step tells** comes from the link of the latest attempt. -/
theorem Reports.message (h : c.Reports reports) (running : c.stopped = false) {input : Input}
    (admits : c.Admits input) {now : Millis} {topic : String} {payload : Text.Octets}
    (hmem : .message topic payload ∈ told (c.manager.step now input).effects) :
    input = .completion (.link c.manager.generation (.message topic payload)) ∧
      c.manager.state ≠ .connecting ∧
      ∃ link, c.source? input = some link ∧ Current link [.connecting, .connected] reports ∧
        (Current link [.connecting, .connected, .disconnected] reports ∨
          c.manager.state = .disconnected ∧
            ∃ l ∈ c.links, c.source? input = some l.2 ∧ c.Over l.1 l.2) := by
  have hh := holds h.reachable running
  have ht := tended h.reachable running
  have hannounces := h.announces running
  obtain ⟨rfl, -⟩ := Manager.told_message hmem
  obtain ⟨⟨generation, link⟩, hlink, rfl⟩ := List.mem_map.1 (show _ ∈ c.links.map Prod.fst from admits)
  have hsource : c.source? (.completion (.link c.manager.generation (.message topic payload)))
      = some link := Table.lookup_of_mem hh.distinct hlink
  refine ⟨rfl, ?_, link, hsource, hannounces.latest link hlink, ?_⟩
  · -- a manager that connects waits for its latest attempt, which has no link yet
    intro hs
    obtain ⟨p, hawaited⟩ := ht.standing.dial_of_connecting hs
    have hdial : .dial c.manager.generation p ∈ c.outstanding :=
      (Manager.mem_concerning.1 (by rw [hawaited]; exact List.mem_singleton_self _)).1
    exact hh.awaited _ p hdial (List.mem_map_of_mem hlink)
  · by_cases hs : c.manager.state = .disconnected
    · exact .inr ⟨hs, _, hlink, hsource, over_of_disconnected h.reachable running hs _ hlink⟩
    · exact .inl (hannounces.lasting link hlink hs)

/-- **A message comes from the link whose connection was announced last.**  The link has brought it
with an event of its own, and no other connection has been made or tried since the announcement.
Neither has the end of the connection been announced, unless the manager has none and the link is
over. -/
theorem messages_of_connections (h : Reachable c) :
    (∃ reports, c.Reports reports) ∧ ∀ reports, c.Reports reports →
      reports.map Report.notice = told c.record ∧
      ∀ earlier r later topic payload, reports = earlier ++ r :: later →
        r.notice = .message topic payload →
        r.input = .completion (.link r.course.manager.generation (.message topic payload)) ∧
        r.course.manager.state ≠ .connecting ∧
        ∃ link, r.link? = some link ∧ Current link [.connecting, .connected] earlier ∧
          (Current link [.connecting, .connected, .disconnected] earlier ∨
            r.course.manager.state = .disconnected ∧ r.Late) := by
  refine ⟨exists_reports h, ?_⟩
  clear h
  intro reports hreports
  refine ⟨hreports.notices, ?_⟩
  induction hreports with
  | start patience ids =>
    intro earlier r later topic payload heq
    simp at heq
  | other h step own ih => exact ih
  | @takes c reports h now input e before after running ends admits split ih =>
    intro earlier r later topic payload heq hn
    rcases Table.split_of_append heq with ⟨later', hold⟩ | ⟨middle, rfl, hnew⟩
    · exact ih earlier r later' topic payload hold hn
    · obtain ⟨notice, hmem, hr⟩ := List.mem_map.1 (show r ∈ c.telling input _ by rw [hnew]; simp)
      obtain rfl : _ = r := hr
      obtain rfl : notice = .message topic payload := hn
      -- the step tells the message alone, so everything before it was told before the step
      obtain rfl : middle = [] := by
        rw [telling, (Manager.told_message hmem).2] at hnew
        cases middle with
        | nil => rfl
        | cons r middle => simp at hnew
      rw [List.append_nil]
      exact h.message running admits hmem

/-- A message that a link brings while it is closed for a rotation. -/
theorem message_amid_rotation :
    ∃ c reports earlier r, Reachable c ∧ c.Reports reports ∧ reports = earlier ++ [r] ∧
      r.notice = .message "topic" [1] ∧ r.course.manager.state = .reconnecting ∧
      ∃ link, r.link? = some link ∧
        Current link [.connecting, .connected, .disconnected] earlier := by
  have connect := (Reports.start 30000 .sequential).takes 0
    (.order ⟨0, .connect ⟨"mqtt://broker", "device", "user", none, true, 0, none⟩⟩) none [] [] rfl
    (.order _) (by decide) rfl
  have dialled := connect.takes 0 (.completion (.dialled 1 (.ok 5))) (some _) [] [] rfl
    (.dialled _ _ _) (by decide) rfl
  have update := dialled.takes 0 (.order ⟨1, .updateCredential (.signature "token")⟩) none [] []
    rfl (.order _) (by decide) rfl
  have message := update.takes 0 (.completion (.link 1 (.message "topic" [1]))) none [_] [] rfl
    (.event _ _) (by decide) rfl
  obtain ⟨-, -, link, hlink, -, hcurrent⟩ :=
    ((messages_of_connections message.reachable).2 _ message).2 _ _ [] "topic" [1] rfl rfl
  refine ⟨_, _, _, _, message.reachable, message, rfl, rfl, rfl, link, hlink, ?_⟩
  exact hcurrent.resolve_right fun hended => by cases hended.1

/-- **A message is told after the end of its connection**: the link is closed as it was asked to be,
and brings a message then. -/
theorem message_after_the_end :
    ¬ ∀ c reports, Reachable c → c.Reports reports →
      ∀ earlier r later topic payload, reports = earlier ++ r :: later →
        r.notice = .message topic payload →
        ∃ link, r.link? = some link ∧
          Current link [.connecting, .connected, .disconnected] earlier := by
  intro hclaim
  have connect := (Reports.start 30000 .sequential).takes 0
    (.order ⟨0, .connect ⟨"mqtt://broker", "device", "user", none, true, 0, none⟩⟩) none [] [] rfl
    (.order _) (by decide) rfl
  have dialled := connect.takes 0 (.completion (.dialled 1 (.ok 5))) (some _) [] [] rfl
    (.dialled _ _ _) (by decide) rfl
  have disconnect := dialled.takes 0 (.order ⟨1, .disconnect⟩) none [] [] rfl (.order _) (by decide)
    rfl
  have closed := disconnect.takes 0 (.completion (.tornDown 1 (.ok ()))) (some _) [] [] rfl
    (.tornDown _ 5 _) (by decide) rfl
  have message := closed.takes 0 (.completion (.link 1 (.message "topic" [1]))) none [] [] rfl
    (.event _ _) (by decide) rfl
  obtain ⟨link, -, hcurrent⟩ := hclaim _ _ message.reachable message _ _ [] "topic" [1] rfl rfl
  exact hcurrent.not_last (s := .disconnected) (by decide) (by decide) rfl

end Course

end DeviceProvisioning.Connection
