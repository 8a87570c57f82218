import DeviceProvisioning.Proofs.Connection.Arrival
import DeviceProvisioning.Proofs.Connection.Past
import DeviceProvisioning.Proofs.Connection.Progress

/-!
# The course of a rotation

A new credential that comes to a connected manager begins a rotation: the old link is closed, and
when it is gone the manager connects again.  Two things can tell it that the link is gone, the
closing that comes back and the patience that ends, and they race: whichever is first releases the
manager, and the other must do nothing any more, even if the next rotation has begun by then.

`Rotation` says which rotation it is, and a manager goes through it in three stages: it waits for
the old link (`Rotation.Waits`), it makes its one attempt (`Rotation.Dials`), and then the attempt
has come back and the rotation is past.  While it reconnects there is little that a manager does
(`Manager.Bides`), so what ends a stage is the input that it waits for and nothing else.
-/

namespace DeviceProvisioning.Connection

open Time (Millis)

/-- **A rotation**: the caller who has ordered it, the credential, and the connection that it
ends. -/
structure Rotation where
  ticket : Ticket
  credential : Credential
  generation : Nat
  link : LinkId

namespace Rotation

/-- Whether an input tells that the old link is gone: it has closed, or the patience has ended. -/
def Releases (R : Rotation) : Input → Prop
  | .completion (.tornDown generation _) => generation = R.generation
  | .expired => True
  | _ => False

/-- Whether an input is what has become of the new attempt. -/
def Concludes (R : Rotation) : Input → Prop
  | .completion (.dialled generation _) => generation = R.generation + 1
  | _ => False

/-- What the caller learns of the new attempt. -/
def outcome : Except LinkError LinkId → Except Failure Unit
  | .ok _ => .ok ()
  | .error error => .error (.ofLink error)

/-- The order that begins a rotation. -/
def order (R : Rotation) : Order :=
  ⟨R.ticket, .updateCredential R.credential⟩

/-- **A manager waits for the old link** to close. -/
structure Waits (R : Rotation) (m : Manager) : Prop where
  rotating : m.Rotating
  generation : m.generation = R.generation
  link : m.link = some R.link
  waiter : m.waiter = some R.ticket
  parameters : ∃ p, m.parameters = some p ∧ p.credential = some R.credential

/-- **A manager makes the new attempt**. -/
structure Dials (R : Rotation) (m : Manager) : Prop where
  state : m.state = .reconnecting
  phase : m.phase = some .dialling
  generation : m.generation = R.generation + 1
  waiter : m.waiter = some R.ticket

end Rotation

variable {now : Millis} {m : Manager} {input : Input} {before after : List Effect}
  {returned : Option Effect} {R : Rotation}

/-! ## The beginning -/

/-- While a change is under way, orders are put off and nothing else happens to them. -/
theorem Turn.defers {t : Turn} (h : t.manager.state.isTransitional = true) (queue : List Order) :
    queue.foldl (fun t o => t.take now o) t
      = ⟨{ t.manager with deferred := t.manager.deferred ++ queue }, t.effects⟩ := by
  induction queue generalizing t with
  | nil => simp
  | cons o queue ih =>
    rw [List.foldl_cons, Turn.take_eq, if_pos h, ih (t := t.defer o) h]
    simp [Turn.defer, Turn.update]

/-- **A step begins a rotation**: when it comes to the order, after its opening and after the orders
before this one, the manager is connected. -/
def Manager.Rotates (now : Millis) (m : Manager) (input : Input) (R : Rotation) : Prop :=
  ∃ m₀ es earlier later, Opening m input m₀ es (earlier ++ R.order :: later) ∧
    m.step now input
      = (earlier ++ R.order :: later).foldl (fun t o => t.take now o) ⟨m₀, es⟩ ∧
    let m₁ := (earlier.foldl (fun t o => t.take now o) (⟨m₀, es⟩ : Turn)).manager
    m₁.state = .connected ∧ m₁.link = some R.link ∧ m₁.generation = R.generation

namespace Manager

/-- **A rotation that has begun waits** for the old link, whatever else the step has come to. -/
theorem Rotates.waits (h : m.Rotates now input R)
    (ht : m.Tended (before ++ returned.toList ++ after)) (he : input.Ends returned)
    (hi : input.isShutDown = false) : R.Waits (m.step now input).manager := by
  obtain ⟨m₀, es, earlier, later, ho, hstep, hs, hl, hg⟩ := h
  rw [hstep, List.foldl_append, List.foldl_cons]
  have ht₁ := Tended.takings now earlier (t := ⟨m₀, es⟩) (ht.opening he hi ho)
  generalize earlier.foldl (fun t o => t.take now o) (⟨m₀, es⟩ : Turn) = t at hs hl hg ht₁ ⊢
  obtain ⟨p, hp⟩ := ht₁.standing.parameters_of_connected hs
  obtain ⟨m₂, es', htake, heq⟩ := t.taking now R.order
  rw [heq]
  cases htake with
  | rotating link credential hs' hl' hc =>
    obtain rfl : R.credential = credential := Command.updateCredential.inj hc
    rw [Turn.defers rfl]
    refine ⟨⟨rfl, rfl⟩, ?_, ?_, rfl, ⟨{ p with credential := some R.credential }, ?_, rfl⟩⟩
    · rw [renewed_generation, hg]
    · rw [renewed_link, hl]
    · simp [renewed, hp]
  | deferred htr =>
    rw [hs] at htr
    cases htr
  | connecting _ hs' | closedAlready hs' | stored _ hs' | refused hs' =>
    rw [hs] at hs'
    cases hs'
  | unlinked _ hl' =>
    rw [hl] at hl'
    cases hl'
  | openAlready _ _ _ _ hc | disconnecting _ _ _ hc | publishing _ _ _ _ _ _ hc
  | subscribing _ _ _ _ _ hc | unsubscribing _ _ _ _ hc => cases hc

/-! ## While a manager reconnects -/

/-- **A manager bides its time**: it puts orders off, and settles what is in flight. -/
structure Bides (m m' : Manager) (es : List Effect) : Prop where
  same : m' = { m with inFlight := m'.inFlight, deferred := m'.deferred }
  attempts : attempts es = []
  forced : forced es = []
  flights : m.Distinct → ∀ q ∈ m.inFlight, q ∈ m'.inFlight ∨ q.2 ∈ answered es

/-- **A manager that reconnects bides its time** until what it waits for has come. -/
theorem Tended.bides (now : Millis) (h : m.Tended (before ++ returned.toList ++ after))
    (he : input.Ends returned) (hi : input.isShutDown = false) (hs : m.state = .reconnecting)
    (hrelease : ∀ es, ¬ Release m input es)
    (hdialled : ∀ result, input ≠ .completion (.dialled m.generation result)) :
    m.Bides (m.step now input).manager (m.step now input).effects := by
  obtain ⟨m', es, queue, ho, hstep⟩ := m.opens now input
  rw [hstep]
  have settles {id : RequestId} {ticket : Ticket} (hl : m.inFlight.lookup id = some ticket)
      (hd : m.Distinct) (q : RequestId × Ticket) (hq : q ∈ m.inFlight) :
      q ∈ m.inFlight.filter (·.1 ≠ id) ∨ q.2 = ticket := by
    by_cases hid : q.1 = id
    · refine .inr (Option.some.inj (?_ : some q.2 = some ticket))
      rw [← hl, ← hid, Table.lookup_of_mem hd hq]
    · exact .inl (List.mem_filter.2 ⟨hq, decide_eq_true hid⟩)
  cases ho with
  | order o =>
    rw [Turn.defers (by rw [hs]; rfl)]
    exact ⟨rfl, rfl, rfl, fun _ q hq => .inl hq⟩
  | acknowledged id ticket hl | undelivered id error ticket hl =>
    refine ⟨rfl, rfl, rfl, fun hd q hq => (settles hl hd q hq).imp_right fun heq => ?_⟩
    simp [Effect.answered?, heq]
  | message | ignored => exact ⟨rfl, rfl, rfl, fun _ q hq => .inl hq⟩
  | lapsed hr =>
    have hnone := h.standing.deadline_none hr
    exact ⟨by rw [← hnone]; rfl, rfl, rfl, fun _ q hq => .inl hq⟩
  | established link | refused error => exact absurd rfl (hdialled _)
  | abandoned generation link hne =>
    obtain ⟨p, rfl⟩ := he.of_dialled
    exact absurd (h.cons_of_some.only rfl).1.dial_inv.1 hne
  | rotated p hr | stranded hr => exact absurd hr (hrelease _)
  | tornDown _ hs' | closed hs' | failed _ hs' =>
    rw [hs] at hs'
    cases hs'
  | shutDown => cases hi

/-- Messages in flight have different ids, also when the source of ids repeats itself: an id that
is handed out again takes the place of its entry. -/
theorem Distinct.step (now : Millis) (input : Input) (h : m.Distinct) :
    (m.step now input).manager.Distinct := by
  refine m.step_induction now input (P := fun m' _ _ => m'.Distinct)
    (fun _ _ _ ho => h.sublist (opening_inFlight ho)) fun m₁ es o queue m₂ es' h₁ ht => ?_
  cases ht with
  | publishing link topic payload delivery =>
    show (List.map Prod.fst _).Nodup
    rw [List.map_append]
    refine List.nodup_append.2 ⟨Table.distinct_drop h₁ _, by simp, fun a ha b hb heq => ?_⟩
    obtain ⟨q, hq, rfl⟩ := List.mem_map.1 ha
    exact of_decide_eq_true (List.mem_filter.1 hq).2 (heq.trans (List.mem_singleton.1 hb))
  | rotating link credential =>
    rw [Distinct, renewed_inFlight]
    exact h₁
  | _ => exact h₁

end Manager

/-! ## From stage to stage -/

namespace Rotation

/-- The link that is closed at once when the old link is gone: the old link itself, if it is the
patience that has ended. -/
def closes (R : Rotation) : Input → List LinkId
  | .expired => [R.link]
  | _ => []

/-- **The old link is gone**: what is in flight fails, and then the attempt is made. -/
theorem Waits.released (h : R.Waits m) (now : Millis) (hr : R.Releases input) :
    ∃ es p, p.credential = some R.credential ∧
      m.step now input = ⟨m.redialled p, es ++ [.dial (R.generation + 1) p]⟩ ∧
      attempts es = [] ∧ forced es = R.closes input ∧ ∀ q ∈ m.inFlight, q.2 ∈ answered es := by
  obtain ⟨p, hp, hc⟩ := h.parameters
  obtain ⟨m', es, queue, ho, hstep⟩ := m.opens now input
  cases ho with
  | rotated p' hrelease hp' =>
    rename_i closing
    obtain rfl : p' = p := Option.some.inj (hp'.symm.trans hp)
    refine ⟨closing ++ m.failing rotationFailure ++ [.count .connectionAttempted], p', hc, ?_,
      attempts_eq_nil (by simp [(Manager.release_silent hrelease).2.2, Effect.isLasting]), ?_,
      fun q hq => ?_⟩
    · rw [hstep, attempting, h.generation]
      simp
    · cases hrelease with
      | tornDown => simp [Effect.forced?, closes]
      | expired => simp [Effect.forced?, closes, h.link]
    · simp only [answered_append, Manager.answered_failing, List.mem_append]
      exact .inl (.inr (List.mem_map_of_mem hq))
  | stranded _ hnone =>
    rw [hp] at hnone
    cases hnone
  | tornDown _ hs =>
    rw [h.rotating.1] at hs
    cases hs
  | lapsed hnot => exact absurd h.rotating hnot
  | ignored hig =>
    unfold Releases at hr
    split at hr
    · exact (hig.elim (absurd (hr.trans h.generation.symm)) fun hnot => absurd h.rotating hnot.2)
    · exact hig.elim
    · exact hr.elim
  | order | established | refused | abandoned | acknowledged | undelivered | message | closed
  | failed | shutDown => exact hr.elim

/-- **The attempt has come back**: the caller learns what has become of it. -/
theorem Dials.answers (h : R.Dials m) (now : Millis) (result : Except LinkError LinkId) :
    .answer R.ticket (outcome result)
      ∈ (m.step now (.completion (.dialled (R.generation + 1) result))).effects := by
  rw [← h.generation]
  refine m.step_induction now _ (P := fun _ es _ => .answer R.ticket (outcome result) ∈ es)
    (fun m' es queue ho => ?_) fun _ _ _ _ _ _ h₁ _ => List.mem_append_left _ h₁
  cases ho with
  | established link => simp [Manager.answering, h.waiter, outcome]
  | refused error => simp [Manager.settling, Manager.reporting, h.waiter, outcome]
  | abandoned generation link hne => exact absurd rfl hne
  | rotated p hr | stranded hr => cases hr
  | ignored hig =>
    cases result with
    | ok link => exact absurd hig id
    | error error => exact absurd rfl hig

end Rotation

/-! ## Courses -/

namespace Course
variable {c c₀ c₁ : Course}

theorem distinct (h : Reachable c) : c.manager.Distinct := by
  induction h with
  | start => exact List.nodup_nil
  | step _ hs ih =>
    cases hs with
    | takes now input => exact ih.step now input
    | _ => exact ih

/-- Who has been answered has been answered once. -/
theorem answered_once (h : Reachable c) {ticket : Ticket} (ha : ticket ∈ answered c.record) :
    (answered c.record).count ticket = 1 := by
  obtain ⟨lost, hk, -⟩ := (accounted h).counted ticket
  have hunique := List.nodup_iff_count.1 (accounted h).unique ticket
  have hpos := List.count_pos_iff.2 ha
  omega

end Course

namespace Rotation
variable {c c' c₀ c₁ : Course} {trace : List (Millis × Input)} {es es' : List Effect}

/-- **A rotation waits**: what has become of the course since it has begun. -/
structure Pending (R : Rotation) (c₀ c : Course) (es : List Effect) : Prop where
  record : c.record = c₀.record ++ es
  waits : R.Waits c.manager
  attempts : attempts es = []
  forced : forced es = []
  flights : ∀ q ∈ c₀.manager.inFlight, q ∈ c.manager.inFlight ∨ q.2 ∈ answered es

/-- **A rotation has been released** and makes its attempt: what has become of the course before
it. -/
structure Released (R : Rotation) (c₀ : Course) (release : Input) (c : Course) (es : List Effect)
    (p : Parameters) : Prop where
  record : c.record = c₀.record ++ es ++ [.dial (R.generation + 1) p]
  credential : p.credential = some R.credential
  attempts : attempts es = []
  forced : forced es = R.closes release
  resolved : ∀ q ∈ c₀.manager.inFlight, q.2 ∈ answered es
  dials : R.Dials c.manager
  link : c.manager.link = none
  deadline : c.manager.deadline = none

/-- **A rotation makes its attempt**: what has become of the course since it was released. -/
structure Trying (R : Rotation) (c₁ c : Course) (es : List Effect) : Prop where
  record : c.record = c₁.record ++ es
  dials : R.Dials c.manager
  attempts : attempts es = []

/-- **A rotation is over**: its attempt has come back, and its caller knows. -/
structure Concluded (R : Rotation) (c₁ : Course) (result : Except LinkError LinkId) (c : Course)
    (es : List Effect) : Prop where
  record : c.record = c₁.record ++ es
  answered : .answer R.ticket (outcome result) ∈ es
  generation : R.generation < c.manager.generation
  returned : ∀ p, .dial (R.generation + 1) p ∉ c.outstanding

/-- A manager that waits is released by the first input that tells that the old link is gone. -/
theorem Pending.released (now : Millis) (h : R.Pending c₀ c es) (hrel : R.Releases input)
    (rest : List Effect) :
    ∃ es' p, R.Released c₀ input (c.follow now input rest) es' p := by
  obtain ⟨es', p, hp, hstep, hattempts, hforced, hresolved⟩ := h.waits.released now hrel
  refine ⟨es ++ es', p, ?_, hp, ?_, ?_, fun q hq => ?_, ?_, ?_, ?_⟩
  · show c.record ++ (c.manager.step now input).effects = _
    rw [hstep, h.record]
    simp
  · rw [attempts_append, h.attempts, hattempts, List.append_nil]
  · rw [forced_append, h.forced, hforced, List.nil_append]
  · rw [answered_append, List.mem_append]
    exact (h.flights q hq).symm.imp_right (hresolved q)
  · show R.Dials (c.manager.step now input).manager
    rw [hstep]
    exact ⟨h.waits.rotating.1, rfl, congrArg (· + 1) h.waits.generation, h.waits.waiter⟩
  · show (c.manager.step now input).manager.link = none
    rw [hstep]
    rfl
  · show (c.manager.step now input).manager.deadline = none
    rw [hstep]
    rfl

section Takes
variable {e : Option Effect} (now : Millis) (hr : Course.Reachable c) (running : c.stopped = false)
  (ends : input.Ends e) (split : c.outstanding = before ++ e.toList ++ after)
include hr running ends split

/-- A manager that waits goes on waiting until it is released. -/
theorem Pending.takes (h : R.Pending c₀ c es) (hi : input.isShutDown = false)
    (hno : ¬ R.Releases input) :
    ∃ es', R.Pending c₀ (c.follow now input (before ++ after)) es' := by
  have ht := split ▸ Course.tended hr running
  have hrelease (es' : List Effect) : ¬ Release c.manager input es' := fun hrel => by
    cases hrel with
    | tornDown => exact hno h.waits.generation
    | expired => exact hno trivial
  -- no attempt can come back to a manager that waits for a link to close
  have hdialled (result : Except LinkError LinkId) :
      input ≠ .completion (.dialled c.manager.generation result) := fun heq => by
    subst heq
    obtain ⟨p, rfl⟩ := ends.of_dialled
    obtain ⟨_, _, _, _, _, haw⟩ := (ht.cons_of_some.only rfl).1.of_rotating h.waits.rotating
    cases haw
  obtain ⟨hsame, hattempts, hforced, hflights⟩ :=
    ht.bides now ends hi h.waits.rotating.1 hrelease hdialled
  refine ⟨es ++ (c.manager.step now input).effects, ?_, ?_, ?_, ?_, fun q hq => ?_⟩
  · exact (congrArg (· ++ _) h.record).trans (List.append_assoc ..)
  · obtain ⟨hrot, hg, hl, hw, hp⟩ := h.waits
    show R.Waits (c.manager.step now input).manager
    rw [hsame]
    exact ⟨hrot, hg, hl, hw, hp⟩
  · rw [attempts_append, h.attempts, hattempts, List.append_nil]
  · rw [forced_append, h.forced, hforced, List.append_nil]
  · rw [answered_append, List.mem_append]
    rcases h.flights q hq with hold | hdone
    · exact (hflights (Course.distinct hr) q hold).imp_right .inr
    · exact .inr (.inl hdone)

/-- A manager that makes its attempt goes on until the attempt comes back. -/
theorem Trying.takes (h : R.Trying c₁ c es) (hi : input.isShutDown = false)
    (hno : ¬ R.Concludes input) :
    ∃ es', R.Trying c₁ (c.follow now input (before ++ after)) es' := by
  have ht := split ▸ Course.tended hr running
  have hrelease (es' : List Effect) : ¬ Release c.manager input es' := fun hrel => by
    have hrot : c.manager.Rotating := by cases hrel <;> assumption
    have hphase := h.dials.phase
    rw [hrot.2] at hphase
    cases hphase
  have hdialled (result : Except LinkError LinkId) :
      input ≠ .completion (.dialled c.manager.generation result) := fun heq =>
    hno (heq ▸ h.dials.generation)
  obtain ⟨hsame, hattempts, -, -⟩ := ht.bides now ends hi h.dials.state hrelease hdialled
  refine ⟨es ++ (c.manager.step now input).effects, ?_, ?_, ?_⟩
  · exact (congrArg (· ++ _) h.record).trans (List.append_assoc ..)
  · obtain ⟨hs, hp, hg, hw⟩ := h.dials
    show R.Dials (c.manager.step now input).manager
    rw [hsame]
    exact ⟨hs, hp, hg, hw⟩
  · rw [attempts_append, h.attempts, hattempts, List.append_nil]

/-- A manager that makes its attempt is done with the rotation when the attempt comes back. -/
theorem Trying.concluded (h : R.Trying c₁ c es) (hc : R.Concludes input) :
    ∃ result es', input = .completion (.dialled (R.generation + 1) result) ∧
      R.Concluded c₁ result (c.follow now input (before ++ after)) es' := by
  have ht := split ▸ Course.tended hr running
  unfold Concludes at hc
  split at hc
  · subst hc
    rename_i result
    obtain ⟨p, rfl⟩ := ends.of_dialled
    have hages := c.manager.ages now (.completion (.dialled (R.generation + 1) result))
    refine ⟨result, es ++ _, rfl, ?_, List.mem_append_right _ (h.dials.answers now result), ?_,
      fun p' hmem => ?_⟩
    · exact (congrArg (· ++ _) h.record).trans (List.append_assoc ..)
    · have := hages.generation
      have := h.dials.generation
      show R.generation < (c.manager.step now _).manager.generation
      omega
    · rcases List.mem_append.1 hmem with hold | hnew
      · have hnone := (ht.cons_of_some.only rfl).2
        exact Manager.no_dial c.manager.generation (by simp [hnone]) _ p' hold
      · have := hages.attempts _ (mem_attempts.2 ⟨p', (List.mem_filter.1 hnew).1⟩)
        have := h.dials.generation
        omega
  · exact hc.elim

end Takes

/-- What comes aside is no part of a rotation. -/
theorem Pending.aside (h : R.Pending c₀ c es) (ha : c.Aside c' es') :
    R.Pending c₀ c' (es ++ es') where
  record := by rw [ha.record, h.record, List.append_assoc]
  waits := ha.manager ▸ h.waits
  attempts := by rw [attempts_append, h.attempts, ha.attempts, List.append_nil]
  forced := by rw [forced_append, h.forced, ha.forced, List.append_nil]
  flights q hq := by
    rw [ha.manager, answered_append, List.mem_append]
    exact (h.flights q hq).imp_right .inl

theorem Trying.aside (h : R.Trying c₁ c es) (ha : c.Aside c' es') :
    R.Trying c₁ c' (es ++ es') where
  record := by rw [ha.record, h.record, List.append_assoc]
  dials := ha.manager ▸ h.dials
  attempts := by rw [attempts_append, h.attempts, ha.attempts, List.append_nil]

/-- **What becomes of the attempt**: it is under way, or the caller has learned of its outcome. -/
theorem Trying.since (h : R.Trying c₁ c₁ []) (hr : Course.Reachable c₁) (hs : c₁.Since trace c')
    (running : c'.stopped = false) :
    (∃ es, R.Trying c₁ c' es ∧ ∀ i ∈ trace, ¬ R.Concludes i.2) ∨
      ∃ result es, c'.record = c₁.record ++ es ∧ .answer R.ticket (outcome result) ∈ es ∧
        (∃ i ∈ trace, R.Concludes i.2) ∧
        ∀ i ∈ trace, ∀ result', i.2 = .completion (.dialled (R.generation + 1) result') →
          result' = result := by
  have hcut := Course.Since.leaves R.Concludes (P := fun c => ∃ es, R.Trying c₁ c es)
    (Q := fun input c => ∃ result es, input = .completion (.dialled (R.generation + 1) result) ∧
      R.Concluded c₁ result c es)
    (fun now hr running ⟨es, h⟩ ends _ split hi =>
      ⟨h.concluded now hr running ends split, h.takes now hr running ends split hi⟩)
    (fun ⟨es, h⟩ ha => ⟨_, h.aside ha⟩) hr ⟨[], h⟩ hs running
  refine hcut.imp (fun ⟨⟨es, htrying⟩, hnone⟩ => ⟨es, htrying, hnone⟩) ?_
  rintro ⟨earlier, ⟨time, input⟩, later, c₂, rfl, hnone, hi, -, ⟨result, es, rfl, hdone⟩, h₂⟩
  obtain ⟨es', hages⟩ := h₂.ages
  refine ⟨result, es ++ es', ?_, List.mem_append_left _ hdone.answered,
    ⟨_, List.mem_append_right _ List.mem_cons_self, hi⟩, fun i hmem result' heq => ?_⟩
  · rw [hages.record, hdone.record, List.append_assoc]
  · rcases List.mem_append.1 hmem with hmem | hmem
    · exact absurd (by rw [heq]; rfl) (hnone i hmem)
    · rcases List.mem_cons.1 hmem with rfl | hmem
      · cases heq
        rfl
      · have hreturned := (hages.returned (R.generation + 1) hdone.generation hdone.returned).2
        exact absurd heq (hreturned i hmem result')

/-- **What a rotation comes to** that an input has released: the manager has made the attempt, and
`later` is what it has taken since. -/
structure Renewed (R : Rotation) (c₀ : Course) (release : Input) (later : List (Millis × Input))
    (c : Course) (es : List Effect) (p : Parameters) (es' : List Effect) : Prop where
  record : c.record = c₀.record ++ es ++ .dial (R.generation + 1) p :: es'
  /-- The attempt is for the new credential, it is the first, and it is made once. -/
  credential : p.credential = some R.credential
  first : attempts es = []
  once : R.generation + 1 ∉ attempts es'
  /-- The old link is closed at once if it is the patience that has ended, and only then. -/
  forced : forced es = R.closes release
  untouched : R.link ∉ Connection.forced es'
  /-- What was in flight on the old link is settled before the attempt. -/
  resolved : ∀ q ∈ c₀.manager.inFlight, q.2 ∈ Connection.answered es
  /-- The closing of the old link, when it comes back late, changes nothing; nor does the patience,
  unless it is that of a further rotation, with a deadline that was set later. -/
  late : ∀ now result,
    c.manager.step now (.completion (.tornDown R.generation result)) = ⟨c.manager, []⟩
  lapsed : ¬ c.manager.Rotating → ∀ now, c.manager.step now .expired = ⟨c.manager, []⟩
  deadline : ∀ d, c.manager.deadline = some d → c.manager.Rotating ∧
    R.generation < c.manager.generation ∧ ∃ i ∈ later, d = i.1 + c.manager.patience
  /-- As long as the attempt is under way there is no other, and the caller waits. -/
  trying : (∀ i ∈ later, ¬ R.Concludes i.2) →
    attempts es' = [] ∧ R.ticket ∉ Connection.answered c.record
  /-- When it has come back, the caller has been answered once, with its outcome. -/
  answered : ∀ now result, (now, .completion (.dialled (R.generation + 1) result)) ∈ later →
    .answer R.ticket (outcome result) ∈ es' ∧ (Connection.answered c.record).count R.ticket = 1

/-- **A rotation that has been released renews the connection.** -/
theorem Released.renewed {release : Input} {p : Parameters} {later : List (Millis × Input)}
    (h : R.Released c₀ release c₁ es p) (hr : Course.Reachable c₁) (hs : c₁.Since later c')
    (hlinked : R.link ∈ c₁.links.map Prod.snd) (running : c'.stopped = false) :
    ∃ es', R.Renewed c₀ release later c' es p es' := by
  obtain ⟨es', hages⟩ := hs.ages
  have hr' := hs.reachable hr
  have hst := (Course.tended hr' running).standing
  have hgeneration : R.generation < c'.manager.generation := by
    have := hages.generation
    have := h.dials.generation
    omega
  have htrying : R.Trying c₁ c₁ [] := ⟨(List.append_nil _).symm, h.dials, rfl⟩
  have hattempt := htrying.since hr hs running
  have hsame {es'' : List Effect} (heq : c'.record = c₁.record ++ es'') : es'' = es' :=
    List.append_cancel_left (heq.symm.trans hages.record)
  refine ⟨es', ?_, h.credential, h.attempts, fun hmem => ?_, h.forced, fun hmem => ?_, h.resolved,
    fun now result => ?_, fun hnot now => ?_, fun d hd => ?_, fun hnone => ?_,
    fun now result hmem => ?_⟩
  · rw [hages.record, h.record]
    simp
  · have := hages.attempts _ hmem
    have := h.dials.generation
    omega
  · have hlink := hages.forced R.link hlinked hmem
    rw [h.link] at hlink
    cases hlink
  · exact if_neg (Nat.ne_of_lt hgeneration)
  · have hnone := hst.deadline_none hnot
    rw [Manager.step, Turn.expired_of_not_rotating now ⟨c'.manager, []⟩ hnot, ← hnone]
    rfl
  · refine ⟨Decidable.byContradiction fun hnot => ?_, hgeneration, ?_⟩
    · rw [hst.deadline_none hnot] at hd
      cases hd
    · rw [hages.patience]
      refine (hages.deadline d hd).resolve_left fun hold => ?_
      rw [h.deadline] at hold
      cases hold
  · obtain ⟨es'', htrying, -⟩ | ⟨result, es'', -, -, ⟨i, hi, hc⟩, -⟩ := hattempt
    · refine ⟨hsame htrying.record ▸ htrying.attempts, Course.unanswered_of_held hr' (.inl ?_)⟩
      simp [Manager.callers, htrying.dials.waiter]
    · exact absurd hc (hnone i hi)
  · obtain ⟨es'', -, hnone⟩ | ⟨result', es'', hrecord, hanswer, -, hunique⟩ := hattempt
    · exact absurd rfl (hnone _ hmem)
    · obtain rfl : result = result' := hunique _ hmem result rfl
      have hanswer : .answer R.ticket (outcome result) ∈ es' := hsame hrecord ▸ hanswer
      have hmem : .answer R.ticket (outcome result) ∈ c'.record := by
        rw [hages.record]
        exact List.mem_append_right _ hanswer
      exact ⟨hanswer, Course.answered_once hr' (List.mem_filterMap.2 ⟨_, hmem, rfl⟩)⟩

end Rotation

namespace Course
variable {c c' : Course} {trace : List (Millis × Input)}

/-- **Whatever comes first releases a rotation, and what comes second does nothing.**  Let a
rotation begin in a connected manager, and let the course go on without a shutdown.  As long as
neither the closing of the old link nor the end of the patience has been taken, the manager waits,
makes no attempt, closes no link at once and leaves the caller unanswered.  The first of the two
that it takes lets it make the one attempt for the new credential, after everything in flight has
been settled; the old link is closed at once if this was the patience, and else never.  From then on
neither of the two changes anything, also when the next rotation is under way; and when the attempt
comes back, the caller is answered once, with its outcome. -/
theorem rotation_released_once {R : Rotation} {now : Millis} {input : Input} {e : Option Effect}
    {before after : List Effect} (hr : Reachable c) (running : c.stopped = false)
    (ends : input.Ends e) (admits : c.Admits input)
    (split : c.outstanding = before ++ e.toList ++ after) (begins : c.manager.Rotates now input R)
    (since : (c.follow now input (before ++ after)).Since trace c')
    (running' : c'.stopped = false) :
    (∃ es, R.Pending (c.follow now input (before ++ after)) c' es ∧
      (∀ i ∈ trace, ¬ R.Releases i.2) ∧ R.ticket ∉ answered c'.record) ∨
    ∃ earlier i later es p es', trace = earlier ++ i :: later ∧
      (∀ j ∈ earlier, ¬ R.Releases j.2) ∧ R.Releases i.2 ∧
      R.Renewed (c.follow now input (before ++ after)) i.2 later c' es p es' := by
  have hr₀ : Reachable (c.follow now input (before ++ after)) :=
    hr.step (.takes _ _ _ _ _ running ends admits split)
  have hwaits : R.Waits (c.follow now input (before ++ after)).manager :=
    begins.waits (split ▸ tended hr running) ends (since.running running')
  have hlinked := link_yielded hr₀ hwaits.link
  generalize c.follow now input (before ++ after) = c₀ at *
  have h₀ : R.Pending c₀ c₀ [] :=
    ⟨(List.append_nil _).symm, hwaits, rfl, rfl, fun _ hq => .inl hq⟩
  have hcut := Since.leaves R.Releases (P := fun c => ∃ es, R.Pending c₀ c es)
    (Q := fun input c => ∃ es p, R.Released c₀ input c es p)
    (fun now hr running ⟨es, h⟩ ends _ split hi => ⟨fun hrel => h.released now hrel _,
      h.takes now hr running ends split hi⟩)
    (fun ⟨es, h⟩ ha => ⟨_, h.aside ha⟩) hr₀ ⟨[], h₀⟩ since running'
  rcases hcut with ⟨⟨es, hp⟩, hnone⟩ |
    ⟨earlier, i, later, c₁, rfl, hnone, hi, h₁, ⟨es, p, hreleased⟩, h₂⟩
  · refine .inl ⟨es, hp, hnone, unanswered_of_held (since.reachable hr₀) (.inl ?_)⟩
    simp [Manager.callers, hp.waits.waiter]
  · obtain ⟨es₁, hages⟩ := h₁.ages
    obtain ⟨es', hrenewed⟩ := hreleased.renewed (h₁.reachable hr₀) h₂
      (List.map_subset _ hages.links hlinked) running'
    exact .inr ⟨earlier, i, later, es, p, es', rfl, hnone, hi, hrenewed⟩

/-- A rotation whose patience ends first, while a message is in flight.  By the time the old link
has closed after all, the new connection is being given up for yet another credential. -/
theorem released_by_patience :
    ∃ c before after c' R later es p es', Reachable c ∧ c.outstanding = before ++ after ∧
      c.manager.Rotates 0 (.order R.order) R ∧ c.manager.inFlight.length = 1 ∧
      (c.follow 0 (.order R.order) (before ++ after)).Since ((30000, .expired) :: later) c' ∧
      later.getLast? = some (30003, .completion (.tornDown 1 (.ok ()))) ∧ c'.manager.Rotating ∧
      R.Renewed (c.follow 0 (.order R.order) (before ++ after)) .expired later c' es p es' := by
  let p : Parameters := ⟨"mqtt://broker", "device", "user", none, true, 0, none⟩
  let R : Rotation := ⟨2, .signature "token", 1, 5⟩
  have connect := (Reachable.start 30000 .sequential).step
    (.takes 0 (.order ⟨0, .connect p⟩) none [] [] rfl (.order _) (by decide) rfl)
  have dialled := connect.step
    (.takes 0 (.completion (.dialled 1 (.ok 5))) (some _) [] [] rfl (.dialled _ p _) (by decide)
      rfl)
  have publish := dialled.step
    (.takes 0 (.order ⟨1, .publish "topic" [] {}⟩) none [] [] rfl (.order _) (by decide) rfl)
  -- what goes on from here depends on a few fields only
  obtain ⟨ids, id, sent, inputs, record, clashed, hr, hinputs⟩ :
      ∃ ids id sent inputs record clashed, Reachable
        { manager :=
            { patience := 30000, ids, state := .connected, parameters := some p, link := some 5
              generation := 1, inFlight := [(id, 1)] }
          outstanding := [sent], links := [(1, 5)], inputs, record, clashed } ∧
        inputs.filterMap Input.ticket? = [0, 1] := ⟨_, _, _, _, _, _, publish, rfl⟩
  have hnew : 2 ∉ inputs.filterMap Input.ticket? := by simp [hinputs]
  have update := hr.step (.takes 0 (.order R.order) none [_] [] rfl (.order _) hnew rfl)
  have here {c : Course} (_ : Reachable c) : c.Since [] c := .refl
  have expired := (here update).takes 30000 .expired none [_, _] [] rfl .expired rfl rfl
  have again := expired.takes 30001 (.completion (.dialled 2 (.ok 6))) (some _) [_, _] [] rfl
    (.dialled _ _ _) (show 6 ∉ [5] by decide) rfl
  obtain ⟨inputs', record', clashed', renewed, hinputs'⟩ :
      ∃ inputs' record' clashed', Since _ [(30000, .expired), (30001, _)]
        { manager :=
            { patience := 30000, ids, state := .connected, link := some 6, generation := 2
              parameters := some { p with credential := some R.credential } }
          outstanding := [sent, .tearDown 1 5], links := [(1, 5), (2, 6)], inputs := inputs'
          record := record', clashed := clashed' } ∧
        inputs'.filterMap Input.ticket? = inputs.filterMap Input.ticket? ++ [2] :=
    ⟨_, _, _, again, by simp [follow, Input.ticket?, Rotation.order, R]⟩
  have hnew' : 3 ∉ inputs'.filterMap Input.ticket? := by simp [hinputs', hinputs]
  have further := renewed.takes 30002 (.order ⟨3, .updateCredential (.signature "other")⟩) none
    [_, _] [] rfl (.order _) hnew' rfl
  have late := further.takes 30003 (.completion (.tornDown 1 (.ok ()))) (some _) [_] [_] rfl
    (.tornDown _ 5 _) trivial rfl
  obtain ⟨es, -, hnone, -⟩ | ⟨earlier, i, later, es, p, es', heq, hnone, -, hrenewed⟩ :=
    rotation_released_once hr rfl (.order R.order) hnew rfl
      ⟨_, _, [], [], .order _, rfl, rfl, rfl, rfl⟩ late rfl
  · exact absurd trivial (hnone (30000, .expired) List.mem_cons_self)
  · cases earlier with
    | cons j earlier =>
      obtain rfl : (30000, Input.expired) = j := (List.cons.inj heq).1
      exact absurd trivial (hnone _ List.mem_cons_self)
    | nil =>
      obtain ⟨rfl, rfl⟩ := List.cons.inj heq
      exact ⟨_, _, _, _, R, _, es, p, es', hr, rfl,
        ⟨_, _, [], [], .order _, rfl, rfl, rfl, rfl⟩, rfl, late, rfl, ⟨rfl, rfl⟩, hrenewed⟩

end Course
end DeviceProvisioning.Connection
