import DeviceProvisioning.Proofs.Connection.Arrival
import Mathlib.Data.List.Induction

/-!
# Where the parameters of an attempt come from

A manager keeps the parameters of its latest attempt, changes their credential when it rotates, and
has a store for one credential that it is given while there is no connection.  So the parameters of
an attempt depend on orders that may have come long before it, have been put off, and were carried
out in the middle of some other step.

The **deeds** of a course say what has been done, in the order in which it was done: an order was
carried out, in some state, or an attempt was made.  Nothing of the manager's memory is in them.
`Sourced` says of every attempt among some deeds what the deeds before it make of its parameters:

* an attempt that an order to connect has begun has the parameters of this order, with the
  credential that was stored last since the order to connect before, if any was (`Prepares`);
* an attempt that belongs to a rotation has the parameters of the attempt before it, with the
  credential of the rotation.

The invariant is that the manager remembers what the deeds say (`Manager.Remembers`): its store is
what they have left in store, and its parameters are those of the latest attempt, except during a
rotation, when they are those of the attempt to come.
-/

namespace DeviceProvisioning.Connection

open Time (Millis)

/-! ## Deeds -/

/-- **What a manager has done.** -/
inductive Deed where
  /-- An order was carried out in this state. -/
  | order (state : State) (o : Order)
  /-- An attempt was made. -/
  | attempt (generation : Nat) (p : Parameters)
deriving DecidableEq

namespace Deed

/-- The order that was carried out. -/
def order? : Deed → Option Order
  | order _ o => some o
  | attempt .. => none

/-- Whether an attempt was made. -/
def isAttempt : Deed → Bool
  | attempt .. => true
  | order .. => false

/-- The credential that was stored for the next connection. -/
def stored? : Deed → Option Credential
  | order .disconnected ⟨_, .updateCredential credential⟩ => some credential
  | _ => none

/-- Whether an order to connect was carried out that begins an attempt. -/
def connects : Deed → Bool
  | order .disconnected ⟨_, .connect _⟩ => true
  | _ => false

end Deed

/-- The attempt that an effect makes. -/
def Effect.deed? : Effect → Option Deed
  | dial generation p => some (.attempt generation p)
  | _ => none

/-- The attempts among effects. -/
def ventures (es : List Effect) : List Deed :=
  es.filterMap Effect.deed?

section Views
variable (e : Effect) (es es' : List Effect)

@[simp] theorem ventures_nil : ventures [] = [] := rfl

@[simp] theorem ventures_cons : ventures (e :: es) = e.deed?.toList ++ ventures es := by
  cases h : e.deed? <;> simp [ventures, h]

@[simp] theorem ventures_append : ventures (es ++ es') = ventures es ++ ventures es' :=
  List.filterMap_append

/-- An attempt goes on until it comes back. -/
theorem ventures_lasting : ventures (lasting es) = ventures es := by
  induction es with
  | nil => rfl
  | cons e es ih => cases e <;> simp [Effect.isLasting, Effect.deed?, ih]

/-- Among attempts there is nothing else. -/
theorem filter_ventures : (ventures es).filter Deed.isAttempt = ventures es := by
  refine List.filter_eq_self.2 fun d hd => ?_
  obtain ⟨e, -, he⟩ := List.mem_filterMap.1 hd
  cases e <;> cases he
  rfl

/-- An attempt carries out no order. -/
theorem orders_ventures : (ventures es).filterMap Deed.order? = [] := by
  refine List.filterMap_eq_nil_iff.2 fun d hd => ?_
  obtain ⟨e, -, he⟩ := List.mem_filterMap.1 hd
  cases e <;> cases he
  rfl

end Views

/-- Effects that start nothing make no attempt. -/
theorem ventures_eq_nil {es : List Effect} (h : lasting es = []) : ventures es = [] := by
  rw [← ventures_lasting, h, ventures_nil]

/-! ## What deeds lead to -/

/-- **A credential is left in store**: it was stored, and since then no other was, and no order to
connect has begun an attempt. -/
def LeavesInStore (deeds : List Deed) (credential : Credential) : Prop :=
  ∃ before ticket after,
    deeds = before ++ .order .disconnected ⟨ticket, .updateCredential credential⟩ :: after ∧
      ∀ d ∈ after, d.stored? = none ∧ d.connects = false

/-- **What the parameters of an order to connect become** after some deeds: the credential that is
left in store takes the place of theirs, and without one they stay as they are. -/
def Prepares (deeds : List Deed) (q p : Parameters) : Prop :=
  (∀ credential, LeavesInStore deeds credential → p = { q with credential := some credential }) ∧
    ((∀ credential, ¬ LeavesInStore deeds credential) → p = q)

/-- **The latest attempt** was made with these parameters. -/
def LatestAttempt (deeds : List Deed) (p : Parameters) : Prop :=
  ∃ before generation after,
    deeds = before ++ .attempt generation p :: after ∧ ∀ d ∈ after, d.isAttempt = false

/-- **Where the parameters of an attempt come from**, after some deeds: the last of them was an
order to connect, or it began a rotation. -/
inductive Source : List Deed → Parameters → Prop where
  | connect {earlier : List Deed} {ticket : Ticket} {q p : Parameters} (h : Prepares earlier q p) :
    Source (earlier ++ [.order .disconnected ⟨ticket, .connect q⟩]) p
  | rotation {earlier : List Deed} {ticket : Ticket} {credential : Credential} {q : Parameters}
      (h : LatestAttempt earlier q) :
    Source (earlier ++ [.order .connected ⟨ticket, .updateCredential credential⟩])
      { q with credential := some credential }

/-- **Every attempt has a source**, and every order to connect that is carried out without a
connection makes its attempt at once. -/
structure Sourced (deeds : List Deed) : Prop where
  attempts : ∀ earlier generation p later, deeds = earlier ++ .attempt generation p :: later →
    Source earlier p
  connects : ∀ earlier ticket q later,
    deeds = earlier ++ .order .disconnected ⟨ticket, .connect q⟩ :: later →
      ∃ generation p later', later = .attempt generation p :: later'

section Stores
variable {deeds : List Deed} {credential : Credential}

/-- **What is left in store** is what was stored last, unless it has been used up. -/
theorem leavesInStore_concat {d : Deed} :
    LeavesInStore (deeds ++ [d]) credential ↔
      d.stored? = some credential ∨
        d.stored? = none ∧ d.connects = false ∧ LeavesInStore deeds credential := by
  constructor
  · rintro ⟨before, ticket, after, heq, hafter⟩
    obtain ⟨later, rfl⟩ | ⟨middle, rfl, hlast⟩ := Table.split_of_append heq
    · obtain rfl : later ++ [d] = after := by simpa using heq
      have hd := hafter d (List.mem_append_right _ (List.mem_singleton_self d))
      refine .inr ⟨hd.1, hd.2, before, ticket, later, rfl, ?_⟩
      exact fun d' hd' => hafter d' (List.mem_append_left _ hd')
    · cases middle with
      | nil =>
        obtain ⟨rfl, -⟩ := List.cons.inj hlast
        exact .inl rfl
      | cons d' middle => simp at hlast
  · rintro (hd | ⟨hstored, hconnects, before, ticket, after, rfl, hafter⟩)
    · obtain ⟨ticket, rfl⟩ :
          ∃ ticket, d = .order .disconnected ⟨ticket, .updateCredential credential⟩ := by
        unfold Deed.stored? at hd
        split at hd
        · exact ⟨_, by rw [Option.some.inj hd]⟩
        · cases hd
      exact ⟨deeds, ticket, [], rfl, by simp⟩
    · refine ⟨before, ticket, after ++ [d], by simp, fun d' hd' => ?_⟩
      rcases List.mem_append.1 hd' with hold | hnew
      · exact hafter d' hold
      · rw [List.mem_singleton.1 hnew]
        exact ⟨hstored, hconnects⟩

/-- An attempt leaves nothing in store by itself. -/
theorem not_leavesInStore_attempt {generation : Nat} {p : Parameters} :
    ¬ LeavesInStore [.attempt generation p] credential := by
  rintro ⟨before, ticket, after, heq, -⟩
  simp [List.cons_eq_append_iff] at heq

/-- **An order to connect uses up what is in store**: afterwards only later deeds count. -/
theorem leavesInStore_after {d : Deed} (hd : d.connects = true) (later : List Deed) :
    LeavesInStore (deeds ++ d :: later) credential ↔ LeavesInStore later credential := by
  induction later using List.reverseRecOn with
  | nil =>
    have hnone : d.stored? = none := by
      unfold Deed.connects at hd
      split at hd
      · rfl
      · cases hd
    rw [leavesInStore_concat]
    simp only [hnone, hd, reduceCtorEq, false_or, false_and, and_false, false_iff]
    rintro ⟨before, ticket, after, heq, -⟩
    simp at heq
  | append_singleton later d' ih =>
    rw [← List.cons_append, ← List.append_assoc, leavesInStore_concat, leavesInStore_concat, ih]

end Stores

/-- Where the latest attempt is not among the deeds that are added, it is the one from before. -/
theorem LatestAttempt.append {deeds new : List Deed} {p : Parameters} (h : LatestAttempt deeds p)
    (hnew : ∀ d ∈ new, d.isAttempt = false) : LatestAttempt (deeds ++ new) p := by
  obtain ⟨before, generation, after, rfl, hafter⟩ := h
  refine ⟨before, generation, after ++ new, by simp, fun d hd => ?_⟩
  exact (List.mem_append.1 hd).elim (hafter d) (hnew d)

theorem latestAttempt_concat (deeds : List Deed) (generation : Nat) (p : Parameters) :
    LatestAttempt (deeds ++ [.attempt generation p]) p :=
  ⟨deeds, generation, [], rfl, by simp⟩

namespace Sourced
variable {deeds new : List Deed}

/-- **More deeds**: what is new among them has to have a source. -/
theorem append (h : Sourced deeds)
    (hattempts : ∀ earlier generation p later, new = earlier ++ .attempt generation p :: later →
      Source (deeds ++ earlier) p)
    (hconnects : ∀ earlier ticket q later,
      new = earlier ++ .order .disconnected ⟨ticket, .connect q⟩ :: later →
        ∃ generation p later', later = .attempt generation p :: later') :
    Sourced (deeds ++ new) where
  attempts earlier generation p later heq := by
    obtain ⟨later', hold⟩ | ⟨middle, rfl, hmiddle⟩ := Table.split_of_append heq
    · exact h.attempts _ _ _ _ hold
    · exact hattempts _ _ _ _ hmiddle
  connects earlier ticket q later heq := by
    obtain ⟨later', hold⟩ | ⟨middle, rfl, hmiddle⟩ := Table.split_of_append heq
    · obtain ⟨generation, p, later'', rfl⟩ := h.connects _ _ _ _ hold
      rw [hold] at heq
      exact ⟨generation, p, later'' ++ new, by simpa using heq.symm⟩
    · exact hconnects _ _ _ _ hmiddle

/-- One more deed that has nothing to do with attempts. -/
theorem concat {d : Deed} (h : Sourced deeds) (ha : d.isAttempt = false)
    (hc : d.connects = false) : Sourced (deeds ++ [d]) := by
  refine h.append (fun earlier generation p later heq => ?_) fun earlier ticket q later heq => ?_
  · obtain ⟨-, rfl, -⟩ : _ ∧ _ = d ∧ _ := by simpa [List.cons_eq_append_iff] using heq
    cases ha
  · obtain ⟨-, rfl, -⟩ : _ ∧ _ = d ∧ _ := by simpa [List.cons_eq_append_iff] using heq
    cases hc

/-- One more attempt. -/
theorem attempt {p : Parameters} (h : Sourced deeds) (hp : Source deeds p) (generation : Nat) :
    Sourced (deeds ++ [.attempt generation p]) := by
  refine h.append (fun earlier generation' p' later heq => ?_) fun earlier ticket q later heq => ?_
  · obtain ⟨rfl, ⟨-, rfl⟩, -⟩ : _ ∧ (_ ∧ p' = p) ∧ _ := by
      simpa [List.cons_eq_append_iff] using heq
    rwa [List.append_nil]
  · simp [List.cons_eq_append_iff] at heq

/-- An order to connect, and its attempt. -/
theorem connect {q p : Parameters} (h : Sourced deeds) (hp : Prepares deeds q p)
    (ticket : Ticket) (generation : Nat) :
    Sourced (deeds ++ [.order .disconnected ⟨ticket, .connect q⟩, .attempt generation p]) := by
  refine h.append (fun earlier _ p' later heq => ?_) fun earlier _ q' later heq => ?_
  · obtain ⟨rfl, ⟨-, rfl⟩, -⟩ :
        earlier = [.order .disconnected ⟨ticket, .connect q⟩] ∧ (_ ∧ p' = p) ∧ _ := by
      simpa [List.cons_eq_append_iff] using heq
    exact .connect hp
  · obtain ⟨-, -, rfl⟩ : earlier = [] ∧ _ ∧ later = [.attempt generation p] := by
      simpa [List.cons_eq_append_iff] using heq
    exact ⟨generation, p, [], rfl⟩

/-- **What was in store before an order to connect plays no part in the next one.** -/
theorem prepares {earlier between later : List Deed} {first second : Ticket} {q q' p : Parameters}
    {generation : Nat}
    (h : Sourced (earlier ++ .order .disconnected ⟨first, .connect q⟩ :: between
      ++ .order .disconnected ⟨second, .connect q'⟩ :: .attempt generation p :: later)) :
    Prepares between q' p := by
  have hsource := h.attempts
    (earlier ++ .order .disconnected ⟨first, .connect q⟩ :: between
      ++ [.order .disconnected ⟨second, .connect q'⟩]) generation p later (by simp)
  generalize hlast : _ ++ [Deed.order .disconnected ⟨second, .connect q'⟩] = deeds at hsource
  cases hsource with
  | @connect before ticket q'' p hprepares =>
    obtain ⟨rfl, heq⟩ := List.append_inj' hlast rfl
    obtain ⟨-, rfl⟩ : _ ∧ q' = q'' := by simpa using heq
    have hused (credential : Credential) :
        LeavesInStore (earlier ++ .order .disconnected ⟨first, .connect q⟩ :: between) credential
          ↔ LeavesInStore between credential := leavesInStore_after rfl between
    simpa only [Prepares, hused] using hprepares
  | rotation =>
    obtain ⟨-, heq⟩ := List.append_inj' hlast rfl
    simp at heq

end Sourced

/-! ## What a manager remembers -/

namespace Manager

/-- **What a manager does when it takes an order** with these effects: it carries the order out,
unless it puts it off, and it may make an attempt. -/
def deeds (m : Manager) (o : Order) (es : List Effect) : List Deed :=
  (if m.state.isTransitional then [] else [.order m.state o]) ++ ventures es

/-- **A manager remembers what it has done.** -/
structure Remembers (m : Manager) (deeds : List Deed) : Prop where
  stored : ∀ credential,
    m.storedCredential = some credential ↔ LeavesInStore deeds credential
  latest : ¬ m.Rotating → ∀ p, m.parameters = some p → LatestAttempt deeds p
  coming : m.Rotating → ∀ p, m.parameters = some p → Source deeds p
  sourced : Sourced deeds

variable {m m' : Manager} {es before after : List Effect} {done : List Deed}

namespace Remembers

theorem start (patience : Millis) (ids : RequestId.Source) :
    ({ patience, ids } : Manager).Remembers [] where
  stored credential := by simp [LeavesInStore]
  latest _ _ hp := nomatch hp
  coming _ _ hp := nomatch hp
  sourced := ⟨by simp, by simp⟩

/-- A manager that keeps its memory. -/
theorem same (h : m.Remembers done) (hs : m'.storedCredential = m.storedCredential)
    (hp : m'.parameters = m.parameters) (hr : m'.Rotating ↔ m.Rotating) : m'.Remembers done where
  stored credential := by rw [hs, h.stored]
  latest hrot p hp' := h.latest (fun hold => hrot (hr.2 hold)) p (hp ▸ hp')
  coming hrot p hp' := h.coming (hr.1 hrot) p (hp ▸ hp')
  sourced := h.sourced

/-- An order that changes no credential leaves a manager its memory. -/
theorem concat {d : Deed} (h : m.Remembers done) (hd : d.isAttempt = false)
    (hstored : d.stored? = none) (hconnects : d.connects = false) (hrot : ¬ m.Rotating) :
    m.Remembers (done ++ [d]) where
  stored credential := by
    rw [h.stored, leavesInStore_concat]
    simp [hstored, hconnects]
  latest _ p hp := (h.latest hrot p hp).append (by simp [hd])
  coming hr := absurd hr hrot
  sourced := h.sourced.concat hd hconnects

/-- A manager that has made an attempt remembers its parameters. -/
theorem attempt {p : Parameters} (h : m.Remembers done) (hp : Source done p) (generation : Nat)
    (hs : m'.storedCredential = m.storedCredential) (hp' : m'.parameters = some p)
    (hr : ¬ m'.Rotating) : m'.Remembers (done ++ [.attempt generation p]) where
  stored credential := by
    rw [hs, h.stored, leavesInStore_concat]
    simp [Deed.stored?, Deed.connects]
  latest _ q hq := by
    obtain rfl : p = q := Option.some.inj (hp'.symm.trans hq)
    exact latestAttempt_concat ..
  coming hr' := absurd hr' hr
  sourced := h.sourced.attempt hp generation

/-- What an order to connect is prepared with is what the deeds have left in store. -/
theorem prepares (h : m.Remembers done) (q : Parameters) : Prepares done q (m.prepared q) := by
  unfold prepared
  cases hstored : m.storedCredential with
  | some credential =>
    refine ⟨fun credential' hleft => ?_, fun hnone => ?_⟩
    · obtain rfl := Option.some.inj (hstored.symm.trans ((h.stored credential').2 hleft))
      rfl
    · exact absurd ((h.stored credential).1 hstored) (hnone credential)
  | none =>
    refine ⟨fun credential hleft => ?_, fun _ => rfl⟩
    rw [(h.stored credential).2 hleft] at hstored
    cases hstored

/-- **What an input leads to by itself** is at most the attempt of a rotation. -/
theorem opening {input : Input} {returned : Option Effect} {queue : List Order}
    (h : m.Remembers done) (ht : m.Tended (before ++ returned.toList ++ after))
    (he : input.Ends returned) (hi : input.isShutDown = false)
    (ho : Opening m input m' es queue) : m'.Remembers (done ++ ventures es) := by
  have ends (hrot : ¬ m.Rotating) (hs : m'.storedCredential = m.storedCredential)
      (hp : m'.parameters = m.parameters) (hr : ¬ m'.Rotating) (hes : lasting es = []) :
      m'.Remembers (done ++ ventures es) := by
    rw [ventures_eq_nil hes, List.append_nil]
    exact h.same hs hp (iff_of_false hr hrot)
  have keeps (hm : m'.state = m.state ∧ m'.phase = m.phase)
      (hs : m'.storedCredential = m.storedCredential) (hp : m'.parameters = m.parameters)
      (hes : lasting es = []) : m'.Remembers (done ++ ventures es) := by
    rw [ventures_eq_nil hes, List.append_nil]
    exact h.same hs hp (by rw [Rotating, Rotating, hm.1, hm.2])
  have hdial {generation : Nat} {p : Parameters} (hst : m.Standing [.dial generation p]) :
      ¬ m.Rotating := fun hrot => by
    obtain ⟨_, _, _, -, -, haw⟩ := hst.of_rotating hrot
    cases haw
  cases ho with
  | order | abandoned | lapsed | acknowledged | undelivered | message | ignored =>
    exact keeps ⟨rfl, rfl⟩ rfl rfl (by simp [Effect.isLasting])
  | established link =>
    obtain ⟨p, rfl⟩ := he.of_dialled
    exact ends (hdial (ht.cons_of_some.only rfl).1) rfl rfl (by simp [Rotating])
      (by simp [Effect.isLasting])
  | refused error =>
    obtain ⟨p, rfl⟩ := he.of_dialled
    exact ends (hdial (ht.cons_of_some.only rfl).1) rfl rfl (by simp [Rotating, settled])
      (by simp [Effect.isLasting])
  | tornDown _ hs | closed hs | failed _ hs =>
    exact ends (by simp [Rotating, hs]) rfl rfl (by simp [Rotating, settled])
      (by simp [Effect.isLasting])
  | stranded hr hp => exact absurd hp (ht.standing.not_stranded hr)
  | rotated p hr hp =>
    have hrot : m.Rotating := by cases hr <;> assumption
    rw [← ventures_lasting, show lasting _ = [.dial (m.generation + 1) p] by
      simp [(release_silent hr).2.2]]
    exact h.attempt (h.coming hrot p hp) _ rfl rfl (by simp [Rotating, redialled])
  | shutDown => cases hi

/-- **The taking of an order** is one deed, or two if it begins an attempt. -/
theorem taking {now : Millis} {o : Order} {awaited : List Effect} (h : m.Remembers done)
    (hst : m.Standing awaited) (ht : Taking now m o m' es) :
    m'.Remembers (done ++ m.deeds o es) := by
  obtain ⟨ticket, command⟩ := o
  have hdeeds {state : State} (hs : m.state = state) (htr : state.isTransitional = false) :
      m.deeds ⟨ticket, command⟩ es = .order state ⟨ticket, command⟩ :: ventures es := by
    simp [deeds, hs, htr]
  have hrot {state : State} (hs : m.state = state) (htr : state.isTransitional = false) :
      ¬ m.Rotating := fun hr => by
    rw [← hs, hr.1] at htr
    cases htr
  -- an order that is answered, or that is carried out on the link
  have other {state : State} (hs : m.state = state) (htr : state.isTransitional = false)
      (hstored : (Deed.order state ⟨ticket, command⟩).stored? = none)
      (hconnects : (Deed.order state ⟨ticket, command⟩).connects = false)
      (hs' : m'.storedCredential = m.storedCredential) (hp : m'.parameters = m.parameters)
      (hr : ¬ m'.Rotating) (hes : ventures es = []) :
      m'.Remembers (done ++ m.deeds ⟨ticket, command⟩ es) := by
    rw [hdeeds hs htr, hes]
    exact (h.concat rfl hstored hconnects (hrot hs htr)).same hs' hp
      (iff_of_false hr (hrot hs htr))
  cases ht with
  | deferred htr =>
    rw [deeds, if_pos htr, ventures_nil, List.append_nil, List.append_nil]
    exact h.same rfl rfl Iff.rfl
  | closedAlready hs hc =>
    obtain rfl : command = .disconnect := hc
    exact other hs rfl rfl rfl rfl rfl (hrot hs rfl) rfl
  | refused hs hc =>
    cases command with
    | publish | subscribe | unsubscribe => exact other hs rfl rfl rfl rfl rfl (hrot hs rfl) rfl
    | connect | disconnect | updateCredential => cases hc
  | unlinked hs | openAlready _ _ hs | publishing _ _ _ _ hs | subscribing _ _ _ hs
  | unsubscribing _ _ hs => exact other hs rfl rfl rfl rfl rfl (hrot hs rfl) rfl
  | disconnecting link hs => exact other hs rfl rfl rfl rfl rfl (by simp [Rotating]) rfl
  | connecting p hs hc =>
    obtain rfl : command = .connect p := hc
    rw [hdeeds hs rfl]
    refine ⟨fun credential => ?_, fun _ q hq => ?_, fun hr => ?_, ?_⟩
    · rw [leavesInStore_after rfl]
      exact iff_of_false nofun not_leavesInStore_attempt
    · obtain rfl : m.prepared p = q := Option.some.inj hq
      exact ⟨_, _, [], (List.append_assoc done [_] _).symm, by simp⟩
    · cases hr.1
    · exact h.sourced.connect (h.prepares p) ticket _
  | stored credential hs hc =>
    obtain rfl : command = .updateCredential credential := hc
    rw [hdeeds hs rfl]
    have hkept := hrot hs rfl
    refine ⟨fun credential' => ?_, fun _ p hp => ?_, fun hr => absurd hr hkept, ?_⟩
    · rw [show ventures _ = [] by rfl, leavesInStore_concat]
      simp [Deed.stored?]
    · exact (h.latest hkept p hp).append (by simp [ventures, Deed.isAttempt, Effect.deed?])
    · exact h.sourced.concat rfl rfl
  | rotating link credential hs hl hc =>
    obtain rfl : command = .updateCredential credential := hc
    obtain ⟨p, hp⟩ := hst.parameters_of_connected hs
    rw [hdeeds hs rfl]
    refine ⟨fun credential' => ?_, fun hr => ?_, fun _ q hq => ?_, h.sourced.concat rfl rfl⟩
    · have hstore : (m.renewed credential).storedCredential = m.storedCredential := by
        simp [renewed, hp]
      rw [show ventures _ = [] by rfl, leavesInStore_concat]
      simp [Deed.stored?, Deed.connects, hstore, h.stored]
    · exact absurd ⟨rfl, rfl⟩ hr
    · have hq : (m.renewed credential).parameters = some q := hq
      obtain rfl : { p with credential := some credential } = q := by
        simpa [renewed, hp] using hq
      exact .rotation (h.latest (hrot hs rfl) p hp)

end Remembers
end Manager

/-! ## Steps -/

/-- **What is done when a queue is taken.** -/
def Turn.deeds (now : Millis) : Turn → List Order → List Deed
  | _, [] => []
  | t, o :: queue =>
    t.manager.deeds o ((t.take now o).effects.drop t.effects.length)
      ++ deeds now (t.take now o) queue

/-- What is done when a queue is taken are the attempts that are made, and the orders that are
carried out. -/
theorem Turn.deeds_views (now : Millis) (queue : List Order) (t : Turn) :
    ventures t.effects ++ (t.deeds now queue).filter Deed.isAttempt
        = ventures (queue.foldl (fun t o => t.take now o) t).effects ∧
      (t.deeds now queue).filterMap Deed.order? = t.carriedOut now queue := by
  induction queue generalizing t with
  | nil => simp [Turn.deeds, Turn.carriedOut]
  | cons o queue ih =>
    obtain ⟨m', es, htake, heq⟩ := t.taking now o
    obtain ⟨hattempts, horders⟩ := ih (t.take now o)
    rw [List.foldl_cons, ← hattempts, Turn.deeds, Turn.carriedOut, ← horders, heq]
    cases htr : t.manager.state.isTransitional <;>
      simp [Manager.deeds, htr, filter_ventures, orders_ventures, Deed.isAttempt, Deed.order?]

namespace Manager
variable {now : Millis} {m : Manager} {input : Input} {before after : List Effect}
  {done new : List Deed}

/-- **What is done in a step**: the attempt of its opening, if there is one, and then what comes of
the orders that it takes. -/
def Does (now : Millis) (m : Manager) (input : Input) (new : List Deed) : Prop :=
  ∃ m' es queue, Opening m input m' es queue ∧
    m.step now input = queue.foldl (fun t o => t.take now o) ⟨m', es⟩ ∧
    new = ventures es ++ Turn.deeds now ⟨m', es⟩ queue

/-- In every step something is done, or nothing. -/
theorem exists_does (now : Millis) (m : Manager) (input : Input) : ∃ new, m.Does now input new := by
  obtain ⟨m', es, queue, hopen, hstep⟩ := m.opens now input
  exact ⟨_, m', es, queue, hopen, hstep, rfl⟩

/-- **A manager remembers what it does** when it takes a queue. -/
theorem Remembers.takings {tasks : List Effect} (queue : List Order) {t : Turn}
    (h : t.manager.Remembers done) (ht : t.manager.Tended (tasks ++ lasting t.effects)) :
    (queue.foldl (fun t o => t.take now o) t).manager.Remembers
      (done ++ Turn.deeds now t queue) := by
  induction queue generalizing t done with
  | nil => rwa [Turn.deeds, List.append_nil]
  | cons o queue ih =>
    obtain ⟨m', es, htake, heq⟩ := t.taking now o
    rw [List.foldl_cons, Turn.deeds, ← List.append_assoc]
    refine ih ?_ ?_ <;> rw [heq]
    · simpa using h.taking ht.standing htake
    · rw [lasting_append, ← List.append_assoc]
      exact ht.taking htake

/-- **A manager remembers what it does in a step**, unless it is the last one. -/
theorem Remembers.step {returned : Option Effect} (h : m.Remembers done)
    (ht : m.Tended (before ++ returned.toList ++ after)) (he : input.Ends returned)
    (hi : input.isShutDown = false) (hdoes : m.Does now input new) :
    (m.step now input).manager.Remembers (done ++ new) := by
  obtain ⟨m', es, queue, hopen, hstep, rfl⟩ := hdoes
  rw [hstep, ← List.append_assoc]
  exact Remembers.takings queue (h.opening ht he hi hopen) (ht.opening he hi hopen)

/-- **What is done in a step** are the attempts among its effects, and the orders that it carries
out. -/
theorem Does.views (h : m.Does now input new) :
    new.filter Deed.isAttempt = ventures (m.step now input).effects ∧
      m.CarriesOut now input (new.filterMap Deed.order?) := by
  obtain ⟨m', es, queue, hopen, hstep, rfl⟩ := h
  obtain ⟨hattempts, horders⟩ := Turn.deeds_views now queue ⟨m', es⟩
  rw [hstep, ← hattempts, List.filter_append, filter_ventures]
  refine ⟨rfl, m', es, queue, hopen, hstep, ?_⟩
  rw [List.filterMap_append, orders_ventures, List.nil_append, horders]

/-- In the last step nothing is done. -/
theorem Does.shutDown (h : m.Does now .shutDown new) : new = [] := by
  obtain ⟨m', es, queue, hopen, -, rfl⟩ := h
  cases hopen with
  | shutDown =>
    rw [ventures_eq_nil (by simp [(goodbye m.deferred).2])]
    rfl
  | rotated p hr | stranded hr => cases hr
  | ignored hig => exact absurd hig id

end Manager

/-! ## Courses -/

namespace Course
variable {c : Course} {done : List Deed}

/-- **What has been done in a course**, in the order in which it was done. -/
inductive Done : Course → List Deed → Prop where
  | start (patience : Millis) (ids : RequestId.Source) : Done { manager := { patience, ids } } []
  | takes {c : Course} {done new : List Deed} {input : Input} {e : Option Effect} (now : Millis)
      (before after : List Effect) (h : Done c done) (running : c.stopped = false)
      (ends : input.Ends e) (admits : c.Admits input)
      (split : c.outstanding = before ++ e.toList ++ after)
      (does : c.manager.Does now input new) :
    Done (c.follow now input (before ++ after)) (done ++ new)
  | other {c c' : Course} {done : List Deed} (h : Done c done) (step : Step c c')
      (own : c'.inputs = c.inputs) : Done c' done

/-- In every course something has been done, or nothing. -/
theorem exists_done (h : Reachable c) : ∃ done, c.Done done := by
  induction h with
  | start patience ids => exact ⟨[], .start patience ids⟩
  | @step c c' hr hs ih =>
    obtain ⟨done, hdone⟩ := ih
    have hother (own : c'.inputs = c.inputs) : ∃ done, c'.Done done :=
      ⟨done, hdone.other hs own⟩
    cases hs with
    | takes now input e before after running ends admits split =>
      obtain ⟨new, hnew⟩ := c.manager.exists_does now input
      exact ⟨_, hdone.takes now before after running ends admits split hnew⟩
    | subscribed | unsubscribed | late => exact hother rfl

theorem Done.reachable (h : c.Done done) : Reachable c := by
  induction h with
  | start patience ids => exact .start patience ids
  | takes now before after h running ends admits split does ih =>
    exact ih.step (.takes _ _ _ _ _ running ends admits split)
  | other h step own ih => exact ih.step step

/-- **A manager that runs remembers what it has done**, and every attempt has had its source. -/
theorem Done.remembered (h : c.Done done) :
    (c.stopped = false → c.manager.Remembers done) ∧ Sourced done := by
  induction h with
  | start patience ids =>
    have hstart := Manager.Remembers.start patience ids
    exact ⟨fun _ => hstart, hstart.sourced⟩
  | @takes c done new input e now before after h running ends admits split does ih =>
    cases hi : input.isShutDown with
    | false =>
      have ht := split ▸ tended h.reachable running
      have hstep := (ih.1 running).step ht ends hi does
      exact ⟨fun _ => hstep, hstep.sourced⟩
    | true =>
      obtain rfl := Input.eq_shutDown hi
      obtain rfl := does.shutDown
      exact ⟨nofun, (List.append_nil done).symm ▸ ih.2⟩
  | @other c c' done h step own ih =>
    obtain ⟨hm, hstop⟩ : c'.manager = c.manager ∧ c'.stopped = c.stopped := by
      cases step with
      | takes => simp [follow] at own
      | subscribed | unsubscribed | late => exact ⟨rfl, rfl⟩
    rw [hm, hstop]
    exact ih

/-- **What has been done** are the attempts in the record, and the orders that were carried out. -/
theorem Done.views (h : c.Done done) :
    done.filter Deed.isAttempt = ventures c.record ∧ c.CarriedOut (done.filterMap Deed.order?) := by
  induction h with
  | start patience ids => exact ⟨rfl, .start patience ids⟩
  | takes now before after h running ends admits split does ih =>
    obtain ⟨hattempts, hcarries⟩ := does.views
    rw [List.filter_append, List.filterMap_append, ih.1, hattempts]
    exact ⟨(ventures_append ..).symm, ih.2.takes running ends admits split hcarries⟩
  | @other c c' done h step own ih =>
    refine ⟨?_, ih.2.other step own⟩
    cases step with
    | takes => simp [follow] at own
    | subscribed | unsubscribed => simp [ih.1, Effect.deed?]
    | late => exact ih.1

/-- **Where the parameters of every attempt come from.**  In every course something has been done,
and these deeds are the attempts in the record and the orders that were carried out.  Every attempt
follows an order to connect that was carried out without a connection, or an update that was carried
out on one.  In the first case it has the parameters of this order, with the credential that the
deeds before it have left in store; in the second, those of the attempt before it with the
credential of the update.  Every order to connect that is carried out without a connection makes an
attempt, and what has been stored before it plays no part in the next one. -/
theorem parameters_of_attempts (h : Reachable c) :
    (∃ done, c.Done done) ∧ ∀ done, c.Done done →
      done.filter Deed.isAttempt = ventures c.record ∧
      c.CarriedOut (done.filterMap Deed.order?) ∧
      (∀ earlier generation p later, done = earlier ++ .attempt generation p :: later →
        Source earlier p) ∧
      (∀ earlier ticket q later,
        done = earlier ++ .order .disconnected ⟨ticket, .connect q⟩ :: later →
          ∃ generation p later', later = .attempt generation p :: later') ∧
      ∀ earlier first q between second q' generation p later,
        done = earlier ++ .order .disconnected ⟨first, .connect q⟩ :: between
          ++ .order .disconnected ⟨second, .connect q'⟩ :: .attempt generation p :: later →
        Prepares between q' p := by
  refine ⟨exists_done h, fun done hdone => ?_⟩
  have hsourced := hdone.remembered.2
  refine ⟨hdone.views.1, hdone.views.2, hsourced.attempts, hsourced.connects, ?_⟩
  rintro earlier first q between second q' generation p later rfl
  exact hsourced.prepares

/-- A credential that is stored, used by the first connection, replaced by a rotation, and not used
again: the second order to connect is dialled with its own. -/
theorem parameters_of_three_attempts :
    ∃ c done p, Reachable c ∧ c.Done done ∧
      done = [.order .disconnected ⟨0, .updateCredential (.signature "stored")⟩,
        .order .disconnected ⟨1, .connect p⟩,
        .attempt 1 { p with credential := some (.signature "stored") },
        .order .connected ⟨2, .updateCredential (.signature "renewed")⟩,
        .attempt 2 { p with credential := some (.signature "renewed") },
        .order .disconnected ⟨3, .connect p⟩, .attempt 3 p] ∧
      done.filter Deed.isAttempt = ventures c.record ∧
      Source (done.take 4) { p with credential := some (.signature "renewed") } ∧
      Prepares [.attempt 1 { p with credential := some (.signature "stored") },
        .order .connected ⟨2, .updateCredential (.signature "renewed")⟩,
        .attempt 2 { p with credential := some (.signature "renewed") }] p p := by
  let p : Parameters := ⟨"mqtt://broker", "device", "user", some (.signature "own"), true, 0, none⟩
  let renewed : Parameters := { p with credential := some (.signature "renewed") }
  let done : List Deed := [.order .disconnected ⟨0, .updateCredential (.signature "stored")⟩,
    .order .disconnected ⟨1, .connect p⟩,
    .attempt 1 { p with credential := some (.signature "stored") },
    .order .connected ⟨2, .updateCredential (.signature "renewed")⟩,
    .attempt 2 renewed,
    .order .disconnected ⟨3, .connect p⟩, .attempt 3 p]
  have store := (Done.start 0 .sequential).takes 0 [] [] rfl
    (.order ⟨0, .updateCredential (.signature "stored")⟩) (by decide) rfl
    ⟨_, _, _, .order _, rfl, rfl⟩
  have connect := store.takes 0 [] [] rfl
    (.order ⟨1, .connect p⟩) (by decide) rfl ⟨_, _, _, .order _, rfl, rfl⟩
  have dialled := connect.takes 0 [] [] rfl
    (.dialled 1 { p with credential := some (.signature "stored") } (.ok 5)) (by decide) rfl
    ⟨_, _, _, .established 5, rfl, rfl⟩
  -- the manager is written out after these steps, which keeps the terms small
  let rotating : Manager :=
    { state := .reconnecting, phase := some .tearingDown, waiter := some 2, link := some 5
      deadline := some 0, generation := 1, parameters := some renewed, patience := 0 }
  have update : Done ⟨rotating, [.tearDown 1 5], _, _, _, _, _, false⟩ (done.take 4) :=
    dialled.takes 0 [] [] rfl
      (.order ⟨2, .updateCredential (.signature "renewed")⟩) (by decide) rfl
      ⟨_, _, _, .order _, rfl, rfl⟩
  let dialling : Manager :=
    { state := .reconnecting, phase := some .dialling, waiter := some 2
      generation := 2, parameters := some renewed, patience := 0 }
  have closed : Done ⟨dialling, [.dial 2 renewed], _, _, _, _, _, false⟩ (done.take 5) :=
    update.takes 0 [] [] rfl (.tornDown 1 5 (.ok ())) (by decide)
      rfl ⟨_, _, _, .rotated _ (.tornDown _ ⟨rfl, rfl⟩) rfl, rfl, rfl⟩
  let disconnected : Manager :=
    { generation := 2, parameters := some renewed, patience := 0 }
  have refused : Done ⟨disconnected, [], _, _, _, _, _, false⟩ (done.take 5) :=
    closed.takes 0 [] [] rfl
      (.dialled 2 renewed (.error (.plain "reset"))) trivial rfl ⟨_, _, _, .refused _, rfl, rfl⟩
  have again := refused.takes 0 [] [] rfl
    (.order ⟨3, .connect p⟩) (by decide) rfl ⟨_, _, _, .order _, rfl, rfl⟩
  obtain ⟨-, hall⟩ := parameters_of_attempts again.reachable
  obtain ⟨hattempts, -, hsource, -, hbetween⟩ := hall done again
  exact ⟨_, done, p, again.reachable, again, rfl, hattempts,
    hsource (done.take 4) 2 { p with credential := some (.signature "renewed") } (done.drop 5) rfl,
    hbetween (done.take 1) 1 p (done.drop 2 |>.take 3) 3 p 3 p [] rfl⟩

end Course

end DeviceProvisioning.Connection
