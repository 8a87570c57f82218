import DeviceProvisioning.Proofs.Connection.Past

/-!
# How links end when the manager does

A manager that is shut down closes its link at once, whatever its state, and all other links that it
has had are over by then.  So every link is closed that an attempt has yielded to it.

An attempt that is still under way then goes on by itself, and what it yields comes too late
(`Course.Strays`).  Nobody closes such a link.  A manager that runs closes the link of an attempt
that it no longer waits for, but there is none any more that could.  As there is one attempt at a
time at most, this can happen to one link only (`Course.links_closed_or_stray`).
-/

namespace DeviceProvisioning.Connection

open Time (Millis)

/-! ## Steps -/

namespace Manager
variable (now : Millis) (m : Manager)

/-- The effects of the last step. -/
theorem effects_shutDown :
    (m.step now .shutDown).effects
      = m.closing ++ m.failing Turn.gone ++ m.answering (.error Turn.gone)
        ++ m.deferred.map fun o => .answer o.ticket (.error Turn.gone) := by
  obtain ⟨m', es, queue, hopen, hstep⟩ := m.opens now .shutDown
  cases hopen with
  | shutDown =>
    rw [hstep]
    rfl
  | rotated p hr | stranded hr => cases hr
  | ignored hig => exact absurd hig id

/-- The last step starts nothing. -/
theorem lasting_shutDown : lasting (m.step now .shutDown).effects = [] := by
  simp [effects_shutDown, (goodbye m.deferred).2]

variable {m} {input : Input}

/-- **The manager asks a link to close** that it has had, or that has just come. -/
theorem link_of_tearDown {generation : Nat} {link : LinkId}
    (h : .tearDown generation link ∈ (m.step now input).effects) :
    m.link = some link ∨ ∃ g, input.link? = some (g, link) := by
  have key := m.step_induction now input
    (P := fun m' es _ => m.Ages now input m' es ∧ ∀ generation link, .tearDown generation link ∈ es →
      m.link = some link ∨ ∃ g, input.link? = some (g, link))
    (fun m' es queue ho => ⟨.opening ho, fun generation link hmem => ?_⟩)
    fun m₁ es o queue m₂ es' ⟨hages, h₁⟩ ht => ⟨hages.taking ht, fun generation link hmem => ?_⟩
  · exact key.2 generation link h
  · have hlasting : .tearDown generation link ∈ lasting es := List.mem_filter.2 ⟨hmem, rfl⟩
    cases ho with
    | rotated p hr | stranded hr => simp [(release_silent hr).2.2] at hlasting
    | shutDown => simp [(goodbye m.deferred).2] at hlasting
    | _ => simp [Effect.isLasting] at hlasting
  · rcases List.mem_append.1 hmem with hold | hnew
    · exact h₁ generation link hold
    · cases ht with
      | disconnecting link' hs hl | rotating link' credential hs hl =>
        obtain ⟨-, rfl⟩ : _ ∧ link = link' := by simpa using hnew
        exact hages.link link hl
      | _ => simp [attempting] at hnew

end Manager

/-! ## Attempts that have come back -/

/-- What concerns a generation are, among others, all attempts. -/
theorem attempts_concerning (generation : Nat) (tasks : List Effect) :
    attempts (concerning generation tasks) = attempts tasks := by
  induction tasks with
  | nil => rfl
  | cons e tasks ih =>
    cases e with
    | tearDown g link => by_cases h : g = generation <;> simp [Effect.concerns, Effect.attempt?, h, ih]
    | _ => simp [Effect.concerns, Effect.attempt?, ih]

/-- There is one attempt at a time at most. -/
theorem Manager.Tended.attempts_le {m : Manager} {tasks : List Effect} (h : m.Tended tasks) :
    (attempts tasks).length ≤ 1 := by
  have hst := h.standing
  rw [← attempts_concerning m.generation]
  generalize concerning m.generation tasks = awaited at hst ⊢
  cases hst <;> simp [Effect.attempt?]

namespace Course
variable {c c' : Course}

/-- **Induction over all courses**: a manager begins, it takes an input, or something happens in
which it takes none. -/
theorem reachable_induction {P : Course → Prop}
    (start : ∀ patience ids, P { manager := { patience, ids } })
    (takes : ∀ {c : Course} {input : Input} {e : Option Effect} {before after : List Effect}
      (now : Millis), Reachable c → c.stopped = false → P c → input.Ends e → c.Admits input →
      c.outstanding = before ++ e.toList ++ after → P (c.follow now input (before ++ after)))
    (aside : ∀ {c c' : Course}, Reachable c → P c → Step c c' → c'.inputs = c.inputs → P c')
    (h : Reachable c) : P c := by
  induction h with
  | start patience ids => exact start patience ids
  | @step c c' hr hs ih =>
    by_cases own : c'.inputs = c.inputs
    · exact aside hr ih hs own
    · cases hs with
      | takes now input e before after running ends admits split =>
        exact takes now hr running ih ends admits split
      | subscribed | unsubscribed | late => exact absurd rfl own

/-- A step in which the manager takes nothing starts nothing either. -/
theorem Step.grows (hs : Step c c') (own : c'.inputs = c.inputs) :
    c'.outstanding.Sublist c.outstanding ∧
      ∃ es, c.Grows es c' ∧ lasting es = [] ∧ forced es = [] := by
  have fewer {before after : List Effect} {e : Effect}
      (split : c.outstanding = before ++ e :: after) :
      (before ++ after).Sublist c.outstanding := by
    rw [split]
    exact (List.Sublist.refl _).append (List.sublist_cons_self _ _)
  cases hs with
  | takes => simp [follow] at own
  | subscribed _ _ _ _ _ _ _ split | unsubscribed _ _ _ _ _ _ split =>
    exact ⟨fewer split, _, ⟨rfl, List.Subset.refl _, rfl, fun e he => .inl ((fewer split).subset he)⟩,
      rfl, rfl⟩
  | late _ _ _ _ _ split =>
    exact ⟨fewer split, [], ⟨rfl, List.Subset.refl _, (List.append_nil _).symm,
      fun e he => .inl ((fewer split).subset he)⟩, rfl, rfl⟩

/-- What is outstanding stands in the record. -/
theorem outstanding_recorded (h : Reachable c) : c.outstanding ⊆ c.record := by
  refine reachable_induction (P := fun c => c.outstanding ⊆ c.record) ?_ ?_ ?_ h
  · exact fun patience ids => List.Subset.refl _
  · intro c input returned before after now hr running ih ends admits split e he
    rcases List.mem_append.1 he with hold | hnew
    · exact List.mem_append_left _ (ih (rest_subset split hold))
    · exact List.mem_append_right _ (List.mem_filter.1 hnew).1
  · intro c c' hr ih hs own e he
    obtain ⟨es, haside⟩ := hs.aside own
    rw [haside.record]
    exact List.mem_append_left _ (ih (haside.outstanding he))

/-- The links are those that attempts have yielded to the manager. -/
theorem links_eq (h : Reachable c) : c.links = c.inputs.filterMap Input.link? := by
  refine reachable_induction (P := fun c => c.links = c.inputs.filterMap Input.link?) ?_ ?_ ?_ h
  · exact fun patience ids => rfl
  · intro c input e before after now hr running ih ends admits split
    show c.links ++ input.link?.toList = (c.inputs ++ [input]).filterMap Input.link?
    rw [List.filterMap_append, ← ih]
    cases hl : input.link? <;> simp [hl]
  · intro c c' hr ih hs own
    obtain ⟨es, haside⟩ := hs.aside own
    rw [haside.links, own, ih]

/-- A link that reports something is one of those. -/
theorem linked_of_event (h : Reachable c) {generation : Nat} {event : Link.Event} :
    .completion (.link generation event) ∈ c.inputs → generation ∈ c.links.map Prod.fst := by
  refine reachable_induction (P := fun c => .completion (.link generation event) ∈ c.inputs →
    generation ∈ c.links.map Prod.fst) ?_ ?_ ?_ h
  · exact fun patience ids hi => absurd hi List.not_mem_nil
  · intro c input e before after now hr running ih ends admits split hi
    show generation ∈ (c.links ++ input.link?.toList).map Prod.fst
    rw [List.map_append]
    apply List.mem_append_left
    rcases List.mem_append.1 hi with hold | hnew
    · exact ih hold
    · obtain rfl := List.mem_singleton.1 hnew
      exact admits
  · intro c c' hr ih hs own hi
    obtain ⟨es, haside⟩ := hs.aside own
    rw [haside.links]
    exact ih (own ▸ hi)

/-- **The manager closes no link that it has not had.** -/
theorem closed_yielded (h : Reachable c) {link : LinkId} :
    ((∃ generation, .tearDown generation link ∈ c.record) ∨ .forceClose link ∈ c.record) →
      link ∈ c.links.map Prod.snd := by
  refine reachable_induction (P := fun c =>
    ((∃ generation, .tearDown generation link ∈ c.record) ∨ .forceClose link ∈ c.record) →
      link ∈ c.links.map Prod.snd) ?_ ?_ ?_ h
  · simp
  · intro c input e before after now hr running ih ends admits split hclosed
    show link ∈ (c.links ++ input.link?.toList).map Prod.snd
    rw [List.map_append]
    have hnew (hor : c.manager.link = some link ∨ ∃ g, input.link? = some (g, link)) :
        link ∈ c.links.map Prod.snd ++ input.link?.toList.map Prod.snd := by
      rcases hor with hold | ⟨g, hnew⟩
      · exact List.mem_append_left _ (link_yielded hr hold)
      · exact List.mem_append_right _ (by simp [hnew])
    rcases hclosed with ⟨generation, hmem⟩ | hmem
    · rcases List.mem_append.1 hmem with hmem | hmem
      · exact List.mem_append_left _ (ih (.inl ⟨generation, hmem⟩))
      · exact hnew (Manager.link_of_tearDown now hmem)
    · rcases List.mem_append.1 hmem with hmem | hmem
      · exact List.mem_append_left _ (ih (.inr hmem))
      · exact hnew ((c.manager.ages now input).forced link (List.mem_filterMap.2 ⟨_, hmem, rfl⟩))
  · intro c c' hr ih hs own hclosed
    obtain ⟨-, es, hgrows, hes, hforced⟩ := hs.grows own
    rw [hgrows.record] at hclosed
    rw [hgrows.links]
    apply ih
    rcases hclosed with ⟨generation, hmem⟩ | hmem
    · rcases List.mem_append.1 hmem with hold | hnew
      · exact .inl ⟨generation, hold⟩
      · have hlasting : .tearDown generation link ∈ lasting es := List.mem_filter.2 ⟨hnew, rfl⟩
        simp [hes] at hlasting
    · rcases List.mem_append.1 hmem with hold | hnew
      · exact .inr hold
      · have hmem : link ∈ forced es := List.mem_filterMap.2 ⟨_, hnew, rfl⟩
        simp [hforced] at hmem

/-- **An attempt that has come back to the manager** is not outstanding any more, and never will
be: its number is not one of those that are still to come. -/
theorem returned (h : Reachable c) {generation : Nat} {result : Except LinkError LinkId} :
    .completion (.dialled generation result) ∈ c.inputs →
      generation ≤ c.manager.generation ∧ ∀ p, .dial generation p ∉ c.outstanding := by
  refine reachable_induction (P := fun c => .completion (.dialled generation result) ∈ c.inputs →
    generation ≤ c.manager.generation ∧ ∀ p, .dial generation p ∉ c.outstanding) ?_ ?_ ?_ h
  · exact fun patience ids hi => absurd hi List.not_mem_nil
  · intro c input e before after now hr running ih ends admits split hi
    have hages := c.manager.ages now input
    have ht := split ▸ tended hr running
    obtain ⟨hle, hrest⟩ : generation ≤ c.manager.generation ∧
        ∀ p, .dial generation p ∉ before ++ after := by
      rcases List.mem_append.1 hi with hold | hnew
      · obtain ⟨hle, hnone⟩ := ih hold
        exact ⟨hle, fun p hmem => hnone p (rest_subset split hmem)⟩
      · obtain rfl := List.mem_singleton.1 hnew
        obtain ⟨p, rfl⟩ := ends.of_dialled
        obtain ⟨hst, hnone⟩ := ht.cons_of_some.only rfl
        refine ⟨Nat.le_of_eq hst.dial_inv.1, fun p => ?_⟩
        refine Manager.no_dial c.manager.generation (fun _ _ => ?_) generation p
        rw [hnone]
        exact List.not_mem_nil
    refine ⟨Nat.le_trans hle hages.generation, fun p hmem => ?_⟩
    rcases List.mem_append.1 hmem with hmem | hmem
    · exact hrest p hmem
    · -- an attempt that is made now bears a later number
      have hlt := hages.attempts generation (mem_attempts.2 ⟨p, (List.mem_filter.1 hmem).1⟩)
      omega
  · intro c c' hr ih hs own hi
    obtain ⟨es, haside⟩ := hs.aside own
    obtain ⟨hle, hnone⟩ := ih (own ▸ hi)
    exact ⟨haside.manager ▸ hle, fun p hmem => hnone p (haside.outstanding hmem)⟩

/-! ## Links that come too late -/

/-- **The links that attempts have yielded when the manager was no more**, each with its
generation.  A step of the course apart from that leaves them as they are. -/
inductive Strays : Course → List (Nat × LinkId) → Prop where
  | start (patience : Millis) (ids : RequestId.Source) :
    Strays { manager := { patience, ids } } []
  | step {c c' : Course} {strays : List (Nat × LinkId)} (h : Strays c strays) (hs : Step c c') :
    Strays c' strays
  | yields {c : Course} {strays : List (Nat × LinkId)} (h : Strays c strays)
      (stopped : c.stopped = true) (generation : Nat) (p : Parameters) (link : LinkId)
      (before after : List Effect) (split : c.outstanding = before ++ .dial generation p :: after)
      (new : link ∉ (c.links ++ strays).map Prod.snd) :
    Strays { c with outstanding := before ++ after } (strays ++ [(generation, link)])

namespace Strays
variable {strays : List (Nat × LinkId)}

theorem reachable (h : c.Strays strays) : Reachable c := by
  induction h with
  | start patience ids => exact .start patience ids
  | step h hs ih => exact ih.step hs
  | yields h stopped generation p link before after split new ih =>
    exact ih.step (.late _ before after stopped rfl split)

/-- A link comes too late only when the manager has been shut down. -/
theorem of_running (h : c.Strays strays) (running : c.stopped = false) : strays = [] := by
  induction h with
  | start => rfl
  | @step c c' strays h hs ih =>
    cases hs with
    | takes now input e before after hrun => exact ih hrun
    | subscribed | unsubscribed => exact ih running
    | late e before after stopped =>
      have running : c.stopped = false := running
      rw [running] at stopped
      cases stopped
  | @yields c strays h stopped =>
    have running : c.stopped = false := running
    rw [running] at stopped
    cases stopped

/-- **One link at most comes too late.** -/
theorem few (h : c.Strays strays) : (attempts c.outstanding).length + strays.length ≤ 1 := by
  -- an attempt under way and a link that comes too late are counted together, as one turns into
  -- the other
  induction h with
  | start => simp
  | @step c c' strays h hs ih =>
    by_cases own : c'.inputs = c.inputs
    · have hle := ((hs.grows own).1.filterMap Effect.attempt?).length_le
      exact Nat.le_trans (Nat.add_le_add_right hle _) ih
    · cases hs with
      | takes now input e before after running ends admits split =>
        obtain rfl := h.of_running running
        cases hi : input.isShutDown with
        | false => exact (tended (h.reachable.step (.takes now input e before after running ends
            admits split)) hi).attempts_le
        | true =>
          -- what is under way when the manager is shut down stays so
          obtain rfl := Input.eq_shutDown hi
          cases ends
          have hout : (c.follow now .shutDown (before ++ after)).outstanding = c.outstanding := by
            show before ++ after ++ lasting _ = c.outstanding
            rw [Manager.lasting_shutDown, List.append_nil, split]
            simp
          rw [hout]
          exact ih
      | subscribed | unsubscribed | late => exact absurd rfl own
  | @yields c strays h stopped generation p link before after split new ih =>
    rw [split] at ih
    simp [Effect.attempt?] at ih ⊢
    omega

/-- **The manager never hears of a link that comes too late.** -/
theorem unheard (h : c.Strays strays) :
    ∀ l ∈ strays, (∃ p, .dial l.1 p ∈ c.record) ∧
      (∀ result, .completion (.dialled l.1 result) ∉ c.inputs) ∧ l.2 ∉ c.links.map Prod.snd := by
  induction h with
  | start => simp
  | @step c c' strays h hs ih =>
    by_cases own : c'.inputs = c.inputs
    · obtain ⟨es, haside⟩ := hs.aside own
      intro l hl
      obtain ⟨⟨p, hdial⟩, hnone, hlink⟩ := ih l hl
      rw [haside.record, haside.links, own]
      exact ⟨⟨p, List.mem_append_left _ hdial⟩, hnone, hlink⟩
    · cases hs with
      | takes now input e before after running =>
        obtain rfl := h.of_running running
        simp
      | subscribed | unsubscribed | late => exact absurd rfl own
  | @yields c strays h stopped generation p link before after split new ih =>
    intro l hl
    rcases List.mem_append.1 hl with hold | hnew
    · exact ih l hold
    · obtain rfl := List.mem_singleton.1 hnew
      have hdial : .dial generation p ∈ c.outstanding := by rw [split]; simp
      refine ⟨⟨p, outstanding_recorded h.reachable hdial⟩, fun result hi => ?_, fun hlink => new ?_⟩
      · exact (returned h.reachable hi).2 p hdial
      · rw [List.map_append]
        exact List.mem_append_left _ hlink

/-- **Nobody closes a link that comes too late.** -/
theorem not_over (h : c.Strays strays) {l : Nat × LinkId} (hl : l ∈ strays) :
    ¬ c.Over l.1 l.2 := by
  obtain ⟨-, hnone, hlink⟩ := h.unheard l hl
  rintro (⟨hasked, -⟩ | hforced | hclosed)
  · exact hlink (closed_yielded h.reachable (.inl ⟨_, hasked⟩))
  · exact hlink (closed_yielded h.reachable (.inr hforced))
  · -- it cannot have reported anything, since the manager does not know of it
    obtain ⟨l', hl', heq⟩ := List.mem_map.1 (linked_of_event h.reachable hclosed)
    rw [links_eq h.reachable] at hl'
    obtain ⟨input, hinput, hlinked⟩ := List.mem_filterMap.1 hl'
    unfold Input.link? at hlinked
    split at hlinked
    · obtain rfl := Option.some.inj hlinked
      obtain rfl : _ = l.1 := heq
      exact hnone _ hinput
    · cases hlinked

end Strays

/-- **Every link that the manager has had is closed when it is no more.** -/
theorem closed_of_stopped (h : Reachable c) :
    c.stopped = true → ∀ l ∈ c.links, c.Over l.1 l.2 := by
  refine reachable_induction (P := fun c => c.stopped = true → ∀ l ∈ c.links, c.Over l.1 l.2)
    ?_ ?_ ?_ h
  · intro patience ids stopped
    cases stopped
  · intro c input e before after now hr running ih ends admits split stopped l hl
    obtain rfl := Input.eq_shutDown stopped
    have hl : l ∈ c.links := by simpa [follow, Input.link?] using hl
    show (c.amid .shutDown (before ++ after) (c.manager.step now .shutDown).effects).Over l.1 l.2
    rcases (holds hr running).held l hl with ⟨-, hlink⟩ | hover
    · -- the link of the manager is closed at once
      refine .inr (.inl (List.mem_append_right _ ?_))
      simp [Manager.effects_shutDown, Manager.closing, hlink]
    · exact hover.grows (grows_amid (rest_subset split) rfl) (by simp [Manager.lasting_shutDown])
  · intro c c' hr ih hs own stopped l hl
    obtain ⟨-, es, hgrows, hes, -⟩ := hs.grows own
    obtain ⟨_, haside⟩ := hs.aside own
    rw [hgrows.links] at hl
    exact (ih (haside.stopped ▸ stopped) l hl).grows hgrows (by simp [hes])

/-- **What becomes of every link.**  When the manager has been shut down, at whatever point and with
whatever is still to come back, every link that an attempt has yielded to it is closed.  A link is
not closed exactly if it comes too late: its attempt was made, but had not come back by then.  There
is one such link at most, and none if all attempts have come back to the manager. -/
theorem links_closed_or_stray {strays : List (Nat × LinkId)} (h : c.Strays strays)
    (stopped : c.stopped = true) :
    (∀ l ∈ c.links, c.Over l.1 l.2) ∧
    (∀ l ∈ strays, ¬ c.Over l.1 l.2 ∧ (∃ p, .dial l.1 p ∈ c.record) ∧
      ∀ result, .completion (.dialled l.1 result) ∉ c.inputs) ∧
    strays.length ≤ 1 ∧
    ((∀ generation p, .dial generation p ∈ c.record →
      ∃ result, .completion (.dialled generation result) ∈ c.inputs) → strays = []) := by
  have hunheard := h.unheard
  refine ⟨closed_of_stopped h.reachable stopped, ?_, ?_, ?_⟩
  · intro l hl
    obtain ⟨hdial, hnone, -⟩ := hunheard l hl
    exact ⟨h.not_over hl, hdial, hnone⟩
  · have hfew := h.few
    omega
  · intro hreturned
    apply List.eq_nil_iff_forall_not_mem.2
    intro l hl
    obtain ⟨⟨p, hdial⟩, hnone, -⟩ := hunheard l hl
    obtain ⟨result, hi⟩ := hreturned l.1 p hdial
    exact hnone result hi

/-- A manager that is shut down while its link closes for a rotation: it does not wait for that. -/
theorem closed_amid_rotation :
    ∃ c : Course, c.Strays [] ∧ c.stopped = true ∧ c.links = [(1, 5)] ∧ .tearDown 1 5 ∈ c.outstanding ∧
      c.Over 1 5 := by
  have connect := (Strays.start 30000 .sequential).step
    (.takes 0 (.order ⟨0, .connect ⟨"mqtt://broker", "device", "user", none, true, 0, none⟩⟩) none
      [] [] rfl (.order _) (by decide) rfl)
  have dialled := connect.step
    (.takes 0 (.completion (.dialled 1 (.ok 5))) (some _) [] [] rfl (.dialled _ _ _) (by decide)
      rfl)
  have update := dialled.step
    (.takes 0 (.order ⟨1, .updateCredential (.signature "token")⟩) none [] [] rfl (.order _)
      (by decide) rfl)
  have shutDown := update.step
    (.takes 0 .shutDown none [.tearDown 1 5] [] rfl .shutDown (by decide) rfl)
  exact ⟨_, shutDown, rfl, rfl, List.mem_cons_self,
    (links_closed_or_stray shutDown rfl).1 (1, 5) List.mem_cons_self⟩

/-- **A link is left open**: the manager is shut down while it connects. -/
theorem link_left_open :
    ¬ ∀ (c : Course) strays, c.Strays strays → c.stopped = true →
      (∀ generation p, .dial generation p ∉ c.outstanding) →
      ∀ l ∈ c.links ++ strays, c.Over l.1 l.2 := by
  intro hclaim
  have connect := (Strays.start 30000 .sequential).step
    (.takes 0 (.order ⟨0, .connect ⟨"mqtt://broker", "device", "user", none, true, 0, none⟩⟩) none
      [] [] rfl (.order _) (by decide) rfl)
  have shutDown := connect.step
    (.takes 0 .shutDown none [_] [] rfl .shutDown (by decide) rfl)
  have yielded := shutDown.yields rfl 1 _ 5 [] [] rfl (by decide)
  exact yielded.not_over (List.mem_singleton_self _)
    (hclaim _ _ yielded rfl (by simp) (1, 5) (List.mem_singleton_self _))

end Course

end DeviceProvisioning.Connection
