import DeviceProvisioning.Registration.Client

/-!
# What a registration comes to

A run puts its questions to a session, and it takes what each of them comes to, a response or a
failure.  A `Course` is a run together with its clock, with the results that it has taken and with
everything it has done.  Nothing is assumed of the results, nor of how long they take.  The clock
does not go past an alarm: a pause is over when it is due, and the time limit ends when it ends.

The results decide what a run does, and this is the idea of the proof.  As long as all of them are
pending, the run has put a question for each of them (`questions`), or is pausing before the next
(`Underway`).  The first other result decides, or else the end of the time limit does (`Decided`).
`Course.Stands` says what this means at every stage.
-/

namespace DeviceProvisioning.Registration

open Time (Millis)

/-! ## Courses -/

/-- The result that a run takes. -/
def Signal.result? : Signal → Option (Except Failure Response)
  | answered result => some result
  | _ => none

/-- When the pause ends that begins with an action. -/
def Action.alarm? (now : Millis) : Action → Option Millis
  | pause interval => some (now + interval)
  | _ => none

/-- Whether an action is the end of the connection. -/
def Action.isDisconnect : Action → Bool
  | disconnect => true
  | _ => false

/-- What a run has come to, although the connection may still be open. -/
def Stage.verdict? : Stage → Option Verdict
  | leaving verdict | ended verdict => some verdict
  | _ => none

/-- **A run, and what has become of it so far.** -/
structure Course where
  limit : Option Millis
  start : Millis
  now : Millis
  stage : Stage := .ready
  /-- When the run goes on by itself. -/
  due : Option Millis
  /-- What the questions have come to, and when. -/
  results : List (Millis × Except Failure Response) := []
  /-- What the run has done, and when. -/
  log : List (Millis × Action) := []

namespace Course

/-- When the time limit ends, if it can still end anything. -/
def deadline? (c : Course) : Option Millis :=
  match c.stage with
  | .ready | .asking | .pausing _ => c.limit.map (c.start + ·)
  | _ => none

/-- The clock moves on, but not past an alarm. -/
def Timely (c : Course) (now : Millis) : Prop :=
  c.now ≤ now ∧ ∀ alarm ∈ c.due.toList ++ c.deadline?.toList, now ≤ alarm

instance (c : Course) : DecidablePred c.Timely :=
  fun _ => inferInstanceAs (Decidable (_ ∧ _))

/-- **What can happen to a run**: at every stage, what it waits for, and the end of the time
limit. -/
inductive Admits (c : Course) (now : Millis) : Signal → Prop where
  | started (hs : c.stage = .ready) : Admits c now .started
  | answered (result : Except Failure Response) (hs : c.stage = .asking) :
    Admits c now (.answered result)
  | resumed (next : Query) (due : Millis) (hs : c.stage = .pausing next) (hd : c.due = some due)
      (h : due ≤ now) : Admits c now .resumed
  | timeUp (limit : Millis) (hs : c.stage = .asking ∨ ∃ next, c.stage = .pausing next)
      (hl : c.limit = some limit) (h : c.start + limit ≤ now) : Admits c now (.timeUp limit)
  | cancelled (limit : Millis) (hs : c.stage = .cancelling limit) : Admits c now .cancelled
  | disconnected (verdict : Verdict) (hs : c.stage = .leaving verdict) : Admits c now .disconnected

/-- The course when the run has taken notice of something. -/
def follow (now : Millis) (signal : Signal) (c : Course) : Course :=
  let (stage, actions) := c.stage.step signal
  { c with
    now, stage
    due := actions.findSome? (Action.alarm? now)
    results := c.results ++ signal.result?.toList.map (now, ·)
    log := c.log ++ actions.map (now, ·) }

/-- **What may happen next.** -/
inductive Step (c : Course) : Course → Prop where
  | takes (now : Millis) (signal : Signal) (timely : c.Timely now) (admits : c.Admits now signal) :
    Step c (c.follow now signal)

/-- **The courses of a run**, with a time limit or without. -/
inductive Reachable : Course → Prop where
  | start (limit : Option Millis) (start : Millis) :
    Reachable { limit, start, now := start, due := some start }
  | step {c c' : Course} (h : Reachable c) (hs : Step c c') : Reachable c'

end Course

/-! ## What results lead to -/

/-- Responses that do not decide. -/
def AllPending (rs : List (Millis × Response)) : Prop :=
  ∀ p ∈ rs, p.2.outcome.status.isPending = true

/-- Responses as results. -/
def answers (rs : List (Millis × Response)) : List (Millis × Except Failure Response) :=
  rs.map fun p => (p.1, .ok p.2)

/-- **The questions that pending responses lead to**: the registration first, and after each
response, when the run has waited for as long as it says, the next. -/
def questions (start : Millis) (rs : List (Millis × Response)) : List (Millis × Action) :=
  (start, .ask .registration) :: rs.flatMap fun p =>
    [(p.1, .pause p.2.interval), (p.1 + p.2.interval, .ask p.2.outcome.nextQuery)]

/-- **What a run has done that is still under way**: it waits for a result, or pauses after a
pending response. -/
inductive Underway (start : Millis) :
    List (Millis × Except Failure Response) → List (Millis × Action) → Prop where
  | asking (rs : List (Millis × Response)) (pending : AllPending rs) :
    Underway start (answers rs) (questions start rs)
  | pausing (rs : List (Millis × Response)) (t : Millis) (r : Response)
      (pending : AllPending (rs ++ [(t, r)])) :
    Underway start (answers (rs ++ [(t, r)])) (questions start rs ++ [(t, .pause r.interval)])

/-- **What a run has done that has come to a verdict**: after pending responses it has taken one
that is not, or a failure, or its time limit has ended.  It has disconnected then, once and last. -/
inductive Decided (limit : Option Millis) (start : Millis) : Verdict →
    List (Millis × Except Failure Response) → List (Millis × Action) → Prop where
  | settled (rs : List (Millis × Response)) (t : Millis) (r : Response) (pending : AllPending rs)
      (final : r.outcome.status.isPending = false) :
    Decided limit start r.outcome.verdict (answers rs ++ [(t, .ok r)])
      (questions start rs ++ [(t, .disconnect)])
  | failed (rs : List (Millis × Response)) (t : Millis) (why : Failure) (pending : AllPending rs) :
    Decided limit start (.error (.transport why)) (answers rs ++ [(t, .error why)])
      (questions start rs ++ [(t, .disconnect)])
  | timedOut {results : List (Millis × Except Failure Response)} {log : List (Millis × Action)}
      (duration t : Millis) (hl : limit = some duration) (underway : Underway start results log) :
    Decided limit start (.error (.timedOut duration)) results
      (log ++ [(start + duration, .cancel), (t, .disconnect)])

/-- How often a run has disconnected. -/
def disconnects (log : List (Millis × Action)) : Nat :=
  log.countP (·.2.isDisconnect)

section
variable {start : Millis} {limit : Option Millis} {rs : List (Millis × Response)}
  {results : List (Millis × Except Failure Response)} {log : List (Millis × Action)}
  {verdict : Verdict} {t : Millis} {r : Response}

/-- **Only an assignment with its record is a success.** -/
theorem Outcome.verdict_eq_ok {o : Outcome} {record : Record} :
    o.verdict = .ok record ↔ o.status = .assigned ∧ o.record = some record := by
  unfold verdict
  cases o.record with
  | none => simp
  | some record' =>
    by_cases hs : o.status = .assigned
    · simp [hs]
    · simp [hs]

theorem AllPending.append (h : AllPending rs) (hr : r.outcome.status.isPending = true) :
    AllPending (rs ++ [(t, r)]) := by
  intro p hp
  rcases List.mem_append.1 hp with hp | hp
  · exact h p hp
  · rwa [List.mem_singleton.1 hp]

/-- A further question. -/
theorem questions_append (start : Millis) (rs : List (Millis × Response)) (t : Millis)
    (r : Response) :
    questions start (rs ++ [(t, r)])
      = questions start rs ++ [(t, .pause r.interval)]
        ++ [(t + r.interval, .ask r.outcome.nextQuery)] := by
  simp [questions]

/-- A run that is under way has taken pending responses only. -/
theorem Underway.pending (h : Underway start results log) :
    ∃ rs, AllPending rs ∧ results = answers rs := by
  cases h with
  | asking rs pending => exact ⟨rs, pending, rfl⟩
  | pausing rs t r pending => exact ⟨rs ++ [(t, r)], pending, rfl⟩

/-- An assignment is not the last of pending responses. -/
theorem AllPending.not_assigned {rs' : List (Millis × Response)} (h : AllPending rs)
    (hs : r.outcome.status = .assigned) : answers rs ≠ answers rs' ++ [(t, .ok r)] := by
  intro heq
  obtain ⟨p, hp, hlast⟩ : ∃ p ∈ rs, (p.1, Except.ok p.2) = (t, (.ok r : Except Failure Response)) :=
    List.mem_map.1 (show _ ∈ answers rs by rw [heq]; simp)
  obtain rfl := Except.ok.inj (Prod.mk.inj hlast).2
  have hpending := h p hp
  rw [hs] at hpending
  cases hpending

@[simp] theorem disconnects_append (log log' : List (Millis × Action)) :
    disconnects (log ++ log') = disconnects log + disconnects log' :=
  List.countP_append

/-- A run that puts questions does not disconnect. -/
@[simp] theorem disconnects_questions (start : Millis) (rs : List (Millis × Response)) :
    disconnects (questions start rs) = 0 := by
  refine List.countP_eq_zero.2 fun p hp => ?_
  rcases List.mem_cons.1 hp with rfl | hp
  · exact Bool.false_ne_true
  · obtain ⟨q, -, hp⟩ := List.mem_flatMap.1 hp
    simp only [List.mem_cons, List.not_mem_nil, or_false] at hp
    rcases hp with rfl | rfl <;> exact Bool.false_ne_true

/-- A run that is under way has not disconnected. -/
theorem Underway.disconnects (h : Underway start results log) : disconnects log = 0 := by
  cases h with
  | asking rs => exact disconnects_questions start rs
  | pausing rs => rw [disconnects_append, disconnects_questions]; rfl

/-- **A run that has come to a verdict has disconnected once.** -/
theorem Decided.disconnects (h : Decided limit start verdict results log) :
    disconnects log = 1 := by
  cases h with
  | settled rs | failed rs => rw [disconnects_append, disconnects_questions]; rfl
  | timedOut duration t hl underway => rw [disconnects_append, underway.disconnects]; rfl

/-- **The verdict is a success exactly if the last result is an assignment** with its record, after
pending responses. -/
theorem Decided.ok_iff (h : Decided limit start verdict results log) (record : Record) :
    verdict = .ok record ↔ ∃ rs t r, AllPending rs ∧ r.outcome.status = .assigned ∧
      r.outcome.record = some record ∧ results = answers rs ++ [(t, .ok r)] := by
  constructor
  · intro hv
    cases h with
    | settled rs t r pending final =>
      obtain ⟨hs, hr⟩ := Outcome.verdict_eq_ok.1 hv
      exact ⟨rs, t, r, pending, hs, hr, rfl⟩
    | failed | timedOut => cases hv
  · rintro ⟨rs, t, r, pending, hs, hr, heq⟩
    -- the last result tells in which way the run has come to its verdict
    cases h with
    | settled rs' t' r' pending' final =>
      obtain ⟨-, hlast⟩ := List.append_inj' heq rfl
      obtain ⟨-, hlast⟩ := Prod.mk.inj (List.singleton_inj.1 hlast)
      obtain rfl := Except.ok.inj hlast
      exact Outcome.verdict_eq_ok.2 ⟨hs, hr⟩
    | failed rs' t' why pending' =>
      obtain ⟨-, hlast⟩ := List.append_inj' heq rfl
      cases List.singleton_inj.1 hlast
    | timedOut duration t' hl underway =>
      obtain ⟨rs', pending', rfl⟩ := underway.pending
      exact absurd heq (pending'.not_assigned hs)

end

/-! ## Between two steps -/

namespace Course
variable {c c' : Course} {now : Millis} {signal : Signal}

/-- **How a run stands**: what it has taken and done, at every stage. -/
def Stands (c : Course) : Prop :=
  match c.stage with
  | .ready => c.now = c.start ∧ c.due = some c.start ∧ c.results = [] ∧ c.log = []
  | .asking => ∃ rs, AllPending rs ∧ c.results = answers rs ∧ c.log = questions c.start rs
  | .pausing next => ∃ rs t r, AllPending (rs ++ [(t, r)]) ∧ next = r.outcome.nextQuery ∧
      c.due = some (t + r.interval) ∧ c.results = answers (rs ++ [(t, r)]) ∧
      c.log = questions c.start rs ++ [(t, .pause r.interval)]
  | .cancelling limit => c.limit = some limit ∧
      ∃ log, Underway c.start c.results log ∧ c.log = log ++ [(c.start + limit, .cancel)]
  | .leaving verdict => Decided c.limit c.start verdict c.results c.log
  | .ended verdict => ∃ log t, Decided c.limit c.start verdict c.results log ∧
      c.log = log ++ [(t, .finish verdict)]

/-- A run that is asking or pausing is under way. -/
theorem Stands.underway (h : c.Stands) (hs : c.stage = .asking ∨ ∃ next, c.stage = .pausing next) :
    Underway c.start c.results c.log := by
  rcases hs with hs | ⟨next, hs⟩
  · rw [Stands, hs] at h
    obtain ⟨rs, pending, hresults, hlog⟩ := h
    rw [hresults, hlog]
    exact .asking rs pending
  · rw [Stands, hs] at h
    obtain ⟨rs, t, r, pending, -, -, hresults, hlog⟩ := h
    rw [hresults, hlog]
    exact .pausing rs t r pending

/-- What a run does at a signal that it waits for. -/
theorem follow_eq {stage : Stage} {actions : List Action}
    (h : c.stage.step signal = (stage, actions)) :
    c.follow now signal
      = { c with
          now, stage
          due := actions.findSome? (Action.alarm? now)
          results := c.results ++ signal.result?.toList.map (now, ·)
          log := c.log ++ actions.map (now, ·) } := by
  rw [Course.follow, h]

/-- A run begins with its first question. -/
theorem Stands.started (h : c.Stands) (hs : c.stage = .ready) (timely : c.Timely now) :
    (c.follow now .started).Stands := by
  have hstep : c.stage.step .started = (.asking, [.ask .registration]) := by rw [hs]; rfl
  rw [Stands, hs] at h
  obtain ⟨hnow, hdue, hresults, hlog⟩ := h
  obtain rfl : now = c.start :=
    Nat.le_antisymm (timely.2 _ (by simp [hdue])) (hnow ▸ timely.1)
  rw [follow_eq hstep, hresults, hlog]
  have pending : AllPending [] := by simp [AllPending]
  exact ⟨[], pending, rfl, rfl⟩

/-- **The result of a question** decides, or there will be another one. -/
theorem Stands.answered (h : c.Stands) (hs : c.stage = .asking)
    (result : Except Failure Response) : (c.follow now (.answered result)).Stands := by
  obtain ⟨rs, pending, hresults, hlog⟩ : ∃ rs, AllPending rs ∧ c.results = answers rs ∧
      c.log = questions c.start rs := by rwa [Stands, hs] at h
  cases result with
  | error why =>
    have hstep : c.stage.step (.answered (.error why))
        = (.leaving (.error (.transport why)), [.disconnect]) := by rw [hs]; rfl
    rw [follow_eq hstep, hresults, hlog]
    exact Decided.failed rs now why pending
  | ok r =>
    cases hr : r.outcome.status.isPending with
    | true =>
      have hstep : c.stage.step (.answered (.ok r))
          = (.pausing r.outcome.nextQuery, [.pause r.interval]) := by
        rw [hs]
        exact if_pos hr
      have hanswers : answers (rs ++ [(now, r)]) = answers rs ++ [(now, .ok r)] := List.map_append
      rw [follow_eq hstep, hresults, hlog]
      exact ⟨rs, now, r, pending.append hr, rfl, rfl, hanswers.symm, rfl⟩
    | false =>
      have hstep : c.stage.step (.answered (.ok r))
          = (.leaving r.outcome.verdict, [.disconnect]) := by
        rw [hs]
        exact if_neg (by simp [hr])
      rw [follow_eq hstep, hresults, hlog]
      exact Decided.settled rs now r pending hr

/-- When a pause is over, the next question is put. -/
theorem Stands.resumed {next : Query} {due : Millis} (h : c.Stands) (hs : c.stage = .pausing next)
    (hd : c.due = some due) (hdue : due ≤ now) (timely : c.Timely now) :
    (c.follow now .resumed).Stands := by
  have hstep : c.stage.step .resumed = (.asking, [.ask next]) := by rw [hs]; rfl
  -- the clock has not gone past the end of the pause, so the pause was as long as was asked
  obtain rfl : now = due := Nat.le_antisymm (timely.2 _ (by simp [hd])) hdue
  rw [Stands, hs] at h
  obtain ⟨rs, t, r, pending, rfl, hd', hresults, hlog⟩ := h
  obtain rfl : now = t + r.interval := Option.some.inj (hd.symm.trans hd')
  rw [follow_eq hstep, hresults, hlog]
  refine ⟨rs ++ [(t, r)], pending, List.append_nil _, ?_⟩
  rw [questions_append]
  rfl

/-- When the time limit ends, the outstanding question is cancelled. -/
theorem Stands.timeUp {limit : Millis} (h : c.Stands)
    (hs : c.stage = .asking ∨ ∃ next, c.stage = .pausing next) (hl : c.limit = some limit)
    (hlimit : c.start + limit ≤ now) (timely : c.Timely now) :
    (c.follow now (.timeUp limit)).Stands := by
  have hstep : c.stage.step (.timeUp limit) = (.cancelling limit, [.cancel]) := by
    rcases hs with hs | ⟨next, hs⟩ <;> rw [hs] <;> rfl
  have hdeadline : c.deadline? = some (c.start + limit) := by
    rcases hs with hs | ⟨next, hs⟩ <;> simp [deadline?, hs, hl]
  obtain rfl : now = c.start + limit :=
    Nat.le_antisymm (timely.2 _ (by simp [hdeadline])) hlimit
  have underway := h.underway hs
  rw [follow_eq hstep]
  refine ⟨hl, c.log, ?_, rfl⟩
  rwa [← List.append_nil c.results] at underway

/-- **A step keeps a run standing.** -/
theorem Stands.follow (h : c.Stands) (timely : c.Timely now) (admits : c.Admits now signal) :
    (c.follow now signal).Stands := by
  cases admits with
  | started hs => exact h.started hs timely
  | answered result hs => exact h.answered hs result
  | resumed next due hs hd hdue => exact h.resumed hs hd hdue timely
  | timeUp limit hs hl hlimit => exact h.timeUp hs hl hlimit timely
  | cancelled limit hs =>
    have hstep : c.stage.step .cancelled = (.leaving (.error (.timedOut limit)), [.disconnect]) := by
      rw [hs]; rfl
    rw [Stands, hs] at h
    obtain ⟨hl, log, underway, hlog⟩ := h
    have hdecided := Decided.timedOut limit now hl underway
    rw [List.append_cons, ← hlog, ← List.append_nil c.results] at hdecided
    rw [follow_eq hstep]
    exact hdecided
  | disconnected verdict hs =>
    have hstep : c.stage.step .disconnected = (.ended verdict, [.finish verdict]) := by rw [hs]; rfl
    rw [Stands, hs, ← List.append_nil c.results] at h
    rw [follow_eq hstep]
    exact ⟨c.log, now, h, rfl⟩

/-! ### The clock -/

/-- **A run keeps its time**: no alarm has been missed, and no result was taken after the time
limit. -/
structure Punctual (c : Course) : Prop where
  alarms : ∀ alarm ∈ c.due.toList ++ c.deadline?.toList, c.now ≤ alarm
  results : ∀ limit, c.limit = some limit → ∀ p ∈ c.results, p.1 ≤ c.start + limit

/-- A pause that begins now is over later. -/
theorem le_due {alarm : Millis} (h : (c.follow now signal).due = some alarm) : now ≤ alarm := by
  obtain ⟨action, -, halarm⟩ := List.exists_of_findSome?_eq_some h
  cases action with
  | pause interval =>
    obtain rfl := Option.some.inj halarm
    exact Nat.le_add_right now interval
  | _ => cases halarm

/-- The time limit does not change as long as it can end anything. -/
theorem deadline_follow (admits : c.Admits now signal) {alarm : Millis}
    (h : (c.follow now signal).deadline? = some alarm) : c.deadline? = some alarm := by
  cases admits with
  | started hs | resumed _ _ hs => simpa [deadline?, follow, hs, Stage.step] using h
  | answered result hs =>
    cases result with
    | error why => simp [deadline?, follow, hs, Stage.step] at h
    | ok r =>
      cases hr : r.outcome.status.isPending with
      | true => simpa [deadline?, follow, hs, Stage.step, Stage.afterResponse, hr] using h
      | false => simp [deadline?, follow, hs, Stage.step, Stage.afterResponse, hr] at h
  | timeUp limit hs => rcases hs with hs | ⟨next, hs⟩ <;> simp [deadline?, follow, hs, Stage.step] at h
  | cancelled limit hs | disconnected verdict hs => simp [deadline?, follow, hs, Stage.step] at h

/-- **A step keeps the time.** -/
theorem Punctual.follow (h : c.Punctual) (timely : c.Timely now) (admits : c.Admits now signal) :
    (c.follow now signal).Punctual where
  alarms alarm hmem := by
    show now ≤ alarm
    rcases List.mem_append.1 hmem with hdue | hdeadline
    · exact le_due (Option.mem_toList.1 hdue)
    · refine timely.2 alarm (List.mem_append_right _ (Option.mem_toList.2 ?_))
      exact deadline_follow admits (Option.mem_toList.1 hdeadline)
  results limit hl p hp := by
    rcases List.mem_append.1 hp with hold | hnew
    · exact h.results limit hl p hold
    · cases admits with
      | answered result hs =>
        obtain rfl := List.mem_singleton.1 hnew
        have hdeadline : c.deadline? = some (c.start + limit) := by
          rw [deadline?, hs]
          exact congrArg (Option.map (c.start + ·)) hl
        exact timely.2 (c.start + limit) (by simp [hdeadline])
      | _ => exact absurd hnew List.not_mem_nil

/-! ## All courses -/

/-- **In every course** the run stands, and keeps its time. -/
theorem stands_punctual (h : Reachable c) : c.Stands ∧ c.Punctual := by
  induction h with
  | start limit start =>
    refine ⟨⟨rfl, rfl, rfl, rfl⟩, fun alarm hmem => ?_, by simp⟩
    cases limit with
    | none =>
      obtain rfl := List.mem_singleton.1 hmem
      exact Nat.le_refl _
    | some limit =>
      have hmem : alarm = start ∨ alarm = start + limit := by simpa [deadline?] using hmem
      rcases hmem with rfl | rfl
      · exact Nat.le_refl _
      · exact Nat.le_add_right start limit
  | step h hs ih =>
    cases hs with
    | takes now signal timely admits =>
      exact ⟨ih.1.follow timely admits, ih.2.follow timely admits⟩

/-- A pause comes to its end, unless the time limit ends before. -/
theorem Punctual.goes_on_pausing {next : Query} (h : c.Punctual) (hc : c.Stands)
    (hs : c.stage = .pausing next) : ∃ c', c.Step c' := by
  obtain ⟨due, hd⟩ : ∃ due, c.due = some due := by
    rw [Stands, hs] at hc
    obtain ⟨rs, t, r, -, -, hd, -⟩ := hc
    exact ⟨_, hd⟩
  by_cases hfirst : ∀ alarm ∈ c.deadline?.toList, due ≤ alarm
  · refine ⟨_, .takes due .resumed ⟨h.alarms due (by simp [hd]), fun alarm hmem => ?_⟩
      (.resumed next due hs hd (Nat.le_refl _))⟩
    rcases List.mem_append.1 hmem with hmem | hmem
    · obtain rfl : due = alarm := Option.some.inj (hd.symm.trans (Option.mem_toList.1 hmem))
      exact Nat.le_refl _
    · exact hfirst alarm hmem
  · obtain ⟨alarm, hmem, hlt⟩ : ∃ alarm ∈ c.deadline?.toList, alarm < due := by simpa using hfirst
    obtain ⟨limit, hl, rfl⟩ : ∃ limit, c.limit = some limit ∧ c.start + limit = alarm := by
      simpa [deadline?, hs] using hmem
    have hdeadline : c.deadline? = some (c.start + limit) := Option.mem_toList.1 hmem
    refine ⟨_, .takes (c.start + limit) (.timeUp limit)
      ⟨h.alarms _ (List.mem_append_right _ hmem), fun alarm hmem => ?_⟩
      (.timeUp limit (.inr ⟨next, hs⟩) hl (Nat.le_refl _))⟩
    have hmem : alarm = due ∨ alarm = c.start + limit := by simpa [hd, hdeadline] using hmem
    rcases hmem with rfl | rfl
    · exact Nat.le_of_lt hlt
    · exact Nat.le_refl _

/-- **A run is never stuck**: as long as it has not ended, something that it waits for can
happen. -/
theorem Punctual.goes_on (h : c.Punctual) (hc : c.Stands) :
    (∃ verdict, c.stage = .ended verdict) ∨ ∃ c', c.Step c' := by
  have htimely : c.Timely c.now := ⟨Nat.le_refl _, h.alarms⟩
  cases hs : c.stage with
  | ready => exact .inr ⟨_, .takes c.now _ htimely (.started hs)⟩
  | asking =>
    -- whatever the result may be
    exact .inr ⟨_, .takes c.now _ htimely (.answered (.error (.cancelled "")) hs)⟩
  | pausing next => exact .inr (h.goes_on_pausing hc hs)
  | cancelling limit => exact .inr ⟨_, .takes c.now _ htimely (.cancelled limit hs)⟩
  | leaving verdict => exact .inr ⟨_, .takes c.now _ htimely (.disconnected verdict hs)⟩
  | ended verdict => exact .inl ⟨verdict, rfl⟩

/-- A run that leaves ends with its verdict. -/
theorem Step.of_leaving {verdict : Verdict} (hs : c.stage = .leaving verdict) (h : c.Step c') :
    c'.stage = .ended verdict := by
  cases h with
  | takes now signal timely admits =>
    cases admits with
    | disconnected verdict' hs' =>
      rw [follow, hs]
      rfl
    | timeUp limit hs' => rcases hs' with hs' | ⟨next, hs'⟩ <;> rw [hs'] at hs <;> cases hs
    | started hs' | answered result hs' | resumed next due hs' | cancelled limit hs' =>
      rw [hs'] at hs
      cases hs

/-- A run without a verdict has taken pending responses only. -/
theorem Stands.undecided (h : c.Stands) (hv : c.stage.verdict? = none) :
    ∃ rs, AllPending rs ∧ c.results = answers rs := by
  cases hs : c.stage with
  | ready =>
    rw [Stands, hs] at h
    exact ⟨[], by simp [AllPending], h.2.2.1⟩
  | asking => exact (h.underway (.inl hs)).pending
  | pausing next => exact (h.underway (.inr ⟨next, hs⟩)).pending
  | cancelling limit =>
    rw [Stands, hs] at h
    obtain ⟨-, log, underway, -⟩ := h
    exact underway.pending
  | leaving verdict | ended verdict => simp [hs, Stage.verdict?] at hv

/-- A run with a verdict has come to it by its results. -/
theorem Stands.decided {verdict : Verdict} (h : c.Stands) (hv : c.stage.verdict? = some verdict) :
    ∃ log, Decided c.limit c.start verdict c.results log := by
  cases hs : c.stage with
  | leaving verdict' =>
    obtain rfl : verdict' = verdict := Option.some.inj (by simpa [hs, Stage.verdict?] using hv)
    rw [Stands, hs] at h
    exact ⟨c.log, h⟩
  | ended verdict' =>
    obtain rfl : verdict' = verdict := Option.some.inj (by simpa [hs, Stage.verdict?] using hv)
    rw [Stands, hs] at h
    obtain ⟨log, -, hdecided, -⟩ := h
    exact ⟨log, hdecided⟩
  | _ => simp [hs, Stage.verdict?] at hv

/-- **What a registration comes to.**  A run has a successful verdict exactly if the last result
that it has taken is an assignment with its record, and all before it were pending responses.  It
takes no result after its time limit, and does not wait beyond it.  When it has come to a verdict,
the results and what it has done are those of `Decided`: after each pending response it has waited
for exactly as long as that says and then put the next question; it has put none after the result
that decides, or after the end of the time limit, when it has cancelled the outstanding one; and
then it has disconnected, once.  When the connection is closed it ends with this verdict.  Until
then it can always go on. -/
theorem comes_to_a_verdict (h : Reachable c) :
    (∀ record, c.stage.verdict? = some (.ok record) ↔ ∃ rs t r, AllPending rs ∧
      r.outcome.status = .assigned ∧ r.outcome.record = some record ∧
      c.results = answers rs ++ [(t, .ok r)]) ∧
    (∀ limit, c.limit = some limit → (∀ p ∈ c.results, p.1 ≤ c.start + limit) ∧
      ((c.stage = .asking ∨ ∃ next, c.stage = .pausing next) → c.now ≤ c.start + limit)) ∧
    (∀ verdict, c.stage = .leaving verdict →
      Decided c.limit c.start verdict c.results c.log ∧
      ∀ c', c.Step c' → c'.stage = .ended verdict) ∧
    (∀ verdict, c.stage = .ended verdict → disconnects c.log = 1 ∧
      ∃ log t, Decided c.limit c.start verdict c.results log ∧
        c.log = log ++ [(t, .finish verdict)]) ∧
    ((∃ verdict, c.stage = .ended verdict) ∨ ∃ c', c.Step c') := by
  obtain ⟨hstands, hpunctual⟩ := stands_punctual h
  refine ⟨?_, ?_, ?_, ?_, hpunctual.goes_on hstands⟩
  · intro record
    cases hv : c.stage.verdict? with
    | none =>
      obtain ⟨rs, pending, hresults⟩ := hstands.undecided hv
      constructor
      · intro hok
        cases hok
      · rintro ⟨rs', t, r, -, hs, -, heq⟩
        exact absurd (hresults.symm.trans heq) (pending.not_assigned hs)
    | some verdict =>
      obtain ⟨log, hdecided⟩ := hstands.decided hv
      rw [Option.some.injEq]
      exact hdecided.ok_iff record
  · intro limit hl
    refine ⟨hpunctual.results limit hl, ?_⟩
    intro hs
    apply hpunctual.alarms
    apply List.mem_append_right
    rcases hs with hs | ⟨next, hs⟩ <;> simp [deadline?, hs, hl]
  · intro verdict hs
    rw [Stands, hs] at hstands
    exact ⟨hstands, fun c' => Step.of_leaving hs⟩
  · intro verdict hs
    rw [Stands, hs] at hstands
    obtain ⟨log, t, hdecided, hlog⟩ := hstands
    refine ⟨?_, log, t, hdecided, hlog⟩
    rw [hlog, disconnects_append, hdecided.disconnects]
    rfl

/-- A device that is assigned when the run has asked twice. -/
theorem assigned_at_last :
    ∃ c : Course, c.Reachable ∧ c.limit = some 60000 ∧
      c.stage = .ended (.ok { deviceId := some "device-1" }) ∧ disconnects c.log = 1 ∧
      ∃ rs t r, AllPending rs ∧ r.outcome.record = some { deviceId := some "device-1" } ∧
        c.results = answers rs ++ [(t, .ok r)] := by
  have started := (Reachable.start (some 60000) 0).step
    (.takes 0 .started (by decide) (.started rfl))
  have pending := started.step
    (.takes 100 (.answered (.ok ⟨{ operationId := some "op", status := .assigning }, 2000⟩))
      (by decide) (.answered _ rfl))
  have resumed := pending.step
    (.takes 2100 .resumed (by decide) (.resumed _ 2100 rfl rfl (Nat.le_refl _)))
  have assigned := resumed.step
    (.takes 2200 (.answered (.ok ⟨{ operationId := some "op", status := .assigned
                                    record := some { deviceId := some "device-1" } }, 0⟩))
      (by decide) (.answered _ rfl))
  have ended := assigned.step (.takes 2300 .disconnected (by decide) (.disconnected _ rfl))
  obtain ⟨hok, -, -, hended, -⟩ := comes_to_a_verdict ended
  obtain ⟨rs, t, r, hpending, -, hrecord, hresults⟩ := (hok _).1 rfl
  exact ⟨_, ended, rfl, rfl, (hended _ rfl).1, rs, t, r, hpending, hrecord, hresults⟩

end Course

end DeviceProvisioning.Registration
