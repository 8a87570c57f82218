import DeviceProvisioning.Proofs.Session.Callers

/-!
# No operation is stranded, and none is published twice

An outstanding operation is to be published once.  Until then its id stands in a piece of work, and
work may be put off, taken up, and put off again while a replay is still going on.

The list that does not change its order in all this is `waiting`: what has been put off, followed by
what is about to be done in the present step.  Two things are kept along it:

* every id is **placed** (`Placed`): it waits once and has not been handed to the manager, or it has
  been handed over once and waits no more.  This is counted, so that it does not matter at which end
  work is taken and where it is put;
* a disconnect **comes first** (`Ahead`): what has been asked for before it is cancelled when it
  comes in, even if it is carried out much later, so the operations outstanding when its turn comes
  were asked for after it, and they wait behind it.

`Course.none_stranded_or_published_twice` is what both come to between two steps.
-/

namespace DeviceProvisioning

/-- The ids that a source has handed out. -/
def RequestId.Source.used (ids : RequestId.Source) : List RequestId :=
  (List.range ids.drawn).map ids.stream

/-- The next id is one more. -/
theorem RequestId.Source.used_advance (ids : RequestId.Source) :
    ids.advance.used = ids.used ++ [ids.peek] := by
  show (List.range (ids.drawn + 1)).map ids.stream = _
  rw [List.range_succ, List.map_append]
  rfl

namespace Session

open Connection (Credential Parameters State Ticket)
open Registration (Query Request)

/-! ## Ids that wait, and ids that have been handed over -/

/-- The id of an operation that is handed to the manager. -/
def Effect.handed? : Effect → Option RequestId
  | publish id _ _ => some id
  | _ => none

/-- The id of an operation that is to be published. -/
def Work.id? : Work → Option RequestId
  | publish id => some id
  | disconnect _ | updateCredential _ _ => none

/-- The ids that have been handed to the manager. -/
def handed (es : List Effect) : List RequestId :=
  es.filterMap Effect.handed?

/-- The ids that wait to be handed over. -/
def queued (works : List Work) : List RequestId :=
  works.filterMap Work.id?

section Views
variable (e : Effect) (es es' : List Effect) (work : Work) (works works' : List Work)

@[simp] theorem handed_nil : handed [] = [] := rfl

@[simp] theorem handed_cons : handed (e :: es) = e.handed?.toList ++ handed es := by
  cases h : e.handed? <;> simp [handed, h]

@[simp] theorem handed_append : handed (es ++ es') = handed es ++ handed es' :=
  List.filterMap_append

@[simp] theorem queued_nil : queued [] = [] := rfl

@[simp] theorem queued_cons : queued (work :: works) = work.id?.toList ++ queued works := by
  cases h : work.id? <;> simp [queued, h]

@[simp] theorem queued_append : queued (works ++ works') = queued works ++ queued works' :=
  List.filterMap_append

end Views

/-- What is to be done: what has been put off, and then what is about to be done. -/
def waiting (s : Session) (queue : List Work) : List Work :=
  s.deferred ++ queue

variable {manager : State} {s s' : Session} {es record : List Effect} {queue : List Work}
  {inputs : List Input}

/-- Nothing is handed over but by work. -/
theorem handed_opening {input : Input} (ho : Opening manager s input s' es queue) :
    handed es = [] := by
  have entering (s : Session) (next : State) : handed (s.entering next) = [] := by
    unfold Session.entering
    split <;> rfl
  have ending (s : Session) (why : Failure) : handed (s.ending why) = [] := by
    refine List.filterMap_eq_nil_iff.2 fun e he => ?_
    obtain ⟨_, rfl⟩ | ⟨p, -, rfl⟩ := of_mem_ending he <;> rfl
  have answering (s : Session) (result : Except Failure Unit) :
      handed (s.answering result) = [] := by
    unfold Session.answering
    cases s.waiter <;> rfl
  have refusing (works : List Work) : handed (works.flatMap refusing) = [] := by
    induction works with
    | nil => rfl
    | cons work works ih =>
      rw [List.flatMap_cons, handed_append, ih, List.append_nil]
      cases work <;> rfl
  cases ho <;> simp [losing, entering, ending, answering, refusing, Effect.handed?]

/-- **Nothing is handed over** while a change is on its way. -/
theorem Tended.no_change_of_handed (manager : State) {input : Input} {returned : Option Effect}
    {before after : List Effect} (h : s.Tended (before ++ returned.toList ++ after))
    (he : input.Ends returned) {id : RequestId}
    (hid : id ∈ handed (s.step manager input).effects) : changes (before ++ after) = [] := by
  refine h.step_induction manager he
    (P := fun _ es _ => id ∈ handed es → changes (before ++ after) = [])
    (fun s' es queue ho hid => ?_) (fun s₁ es work queue s₂ es' ht h₁ hd hid => ?_) hid
  · rw [handed_opening ho] at hid
    cases hid
  · rw [handed_append] at hid
    rcases List.mem_append.1 hid with hold | hnew
    · exact h₁ hold
    · cases hd with
      | publishing id op hs hp =>
        -- the session has settled, so there is no change at all
        have hnone := (Standing.of_settled ht (by rw [hs]; rfl)).1
        rw [changes_append] at hnone
        exact (List.append_eq_nil_iff.1 hnone).1
      | _ => simp [Effect.handed?] at hnew

/-! ## Every id is placed -/

/-- The ids that have been handed over or wait for it. -/
def places (record : List Effect) (works : List Work) : List RequestId :=
  handed record ++ queued works

/-- **Every id is in its place**: none is in two, none comes from elsewhere than the source, and
that of an outstanding operation is somewhere. -/
structure Placed (s : Session) (record : List Effect) (works : List Work) : Prop where
  once : (places record works).Nodup
  drawn : ∀ id ∈ places record works, id ∈ s.ids.used
  kept : ∀ p ∈ s.pending, p.1 ∈ places record works

/-- Ids may be moved, and may be dropped when they are not outstanding. -/
theorem Placed.moved {record' : List Effect} {works works' : List Work}
    (h : s.Placed record works) (hids : s'.ids = s.ids)
    (hcount : ∀ id, (places record' works').count id ≤ (places record works).count id)
    (hkept : ∀ p ∈ s'.pending, p.1 ∈ places record' works') : s'.Placed record' works' where
  once := List.nodup_iff_count.2 fun id =>
    Nat.le_trans (hcount id) (List.nodup_iff_count.1 h.once id)
  drawn id hmem := by
    rw [hids]
    refine h.drawn id (List.count_pos_iff.1 ?_)
    exact Nat.lt_of_lt_of_le (List.count_pos_iff.2 hmem) (hcount id)
  kept := hkept

/-- A new id goes to the end of what waits. -/
theorem Placed.asked (ticket : Ticket) (request : Request) (query : Query) {works : List Work}
    (h : s.Placed record works) (hnew : s.ids.peek ∉ s.ids.used) :
    (s.asked ticket request query).Placed record (works ++ [.publish s.ids.peek]) := by
  have hplaces : places record (works ++ [.publish s.ids.peek])
      = places record works ++ [s.ids.peek] := by
    simp [places, Work.id?]
  refine ⟨?_, fun id hmem => ?_, fun p hp => ?_⟩
  · rw [hplaces, List.nodup_append]
    refine ⟨h.once, by simp, fun id hid id' hid' heq => hnew ?_⟩
    rw [← List.mem_singleton.1 hid', ← heq]
    exact h.drawn id hid
  · show id ∈ s.ids.advance.used
    rw [RequestId.Source.used_advance]
    rw [hplaces] at hmem
    rcases List.mem_append.1 hmem with hold | hlast
    · exact List.mem_append_left _ (h.drawn id hold)
    · exact List.mem_append_right _ hlast
  · rw [hplaces]
    rcases List.mem_append.1 hp with hold | hlast
    · exact List.mem_append_left _ (h.kept p (List.mem_filter.1 hold).1)
    · rw [List.mem_singleton.1 hlast]
      exact List.mem_append_right _ (List.mem_singleton_self _)

/-- **What an input leads to by itself** keeps ids in their places, if the source does not repeat
itself. -/
theorem Placed.opening {input : Input} (h : s.Placed record s.deferred)
    (hids : s'.ids.used.Nodup) (ho : Opening manager s input s' es queue) :
    s'.Placed (record ++ es) (s'.waiting queue) := by
  have hplaces (works : List Work) : places (record ++ es) works = places record works := by
    rw [places, handed_append, handed_opening ho, List.append_nil, places]
  -- the same ids wait, and nothing is outstanding that was not so before
  have same (hids : s'.ids = s.ids) (hq : queued (s'.waiting queue) = queued s.deferred)
      (hp : ∀ p ∈ s'.pending, p ∈ s.pending) : s'.Placed (record ++ es) (s'.waiting queue) := by
    have heq : places (record ++ es) (s'.waiting queue) = places record s.deferred := by
      rw [hplaces, places, hq, places]
    refine h.moved hids (fun id => ?_) fun p hmem => ?_
    · exact Nat.le_of_eq (by rw [heq])
    · rw [heq]
      exact h.kept p (hp p hmem)
  cases ho with
  | asked ticket request query =>
    have hids : s.ids.advance.used.Nodup := hids
    rw [RequestId.Source.used_advance, List.nodup_append] at hids
    obtain ⟨once, drawn, kept⟩ := h.asked ticket request query
      fun hmem => hids.2.2 _ hmem _ (List.mem_singleton_self _) rfl
    simp only [← hplaces] at once drawn kept
    exact ⟨once, drawn, kept⟩
  | cancelled | disconnect | updateCredential | connected | lostConnecting | unconnected
  | reconnected | lostReconnecting | unreconnected | disconnected | dropped | lost | noted
  | ignored =>
    refine same rfl ?_ ?_ <;> simp [waiting, changed, fallen, Work.id?]
  | unpublished id why op hp | responded topic payload response id op hr hp =>
    exact same rfl (by simp [waiting, without]) fun p hmem => (List.mem_filter.1 hmem).1
  | shutDown =>
    refine h.moved rfl (fun id => ?_) fun p hmem => absurd hmem List.not_mem_nil
    rw [hplaces]
    simp [places, waiting]

/-- **The doing of work** keeps ids in their places: one that is handed over waits no more. -/
theorem Placed.doing {work : Work} (h : s.Placed record (s.waiting (work :: queue)))
    (hd : Doing s work s' es) : s'.Placed (record ++ es) (s'.waiting queue) := by
  cases hd with
  | deferred work htr | connecting id op hs hp =>
    refine h.moved rfl (fun id => ?_) fun p hmem => ?_
    · simp [places, waiting, List.count_append, Effect.handed?]
    · simpa [places, waiting, Effect.handed?] using h.kept p hmem
  | publishing id op hs hp =>
    have hmoved : (places (record ++ [.publish id op.topic op.body]) (s.waiting queue)).Perm
        (places record (s.waiting (.publish id :: queue))) := by
      simp only [places, waiting, handed_append, handed_cons, handed_nil, queued_append,
        queued_cons, Effect.handed?, Work.id?, Option.toList_some, List.append_assoc,
        List.cons_append, List.nil_append]
      exact List.perm_middle.symm.append_left (handed record)
    refine h.moved rfl (fun id => ?_) fun p hmem => ?_
    · exact Nat.le_of_eq (hmoved.count_eq id)
    · exact hmoved.mem_iff.2 (h.kept p hmem)
  | forgotten id hs hp =>
    -- nothing outstanding bears the id that is dropped
    refine h.moved rfl (fun id => ?_) fun p hmem => ?_
    · simp only [places, waiting, List.append_nil, queued_append, queued_cons, List.count_append]
      omega
    · have hne : p.1 ≠ id := by
        intro heq
        have hnone := List.lookup_eq_none_iff.1 hp p hmem
        simp [heq] at hnone
      simpa [places, waiting, Work.id?, hne] using h.kept p hmem
  | closedAlready | disconnecting | stored | reconnecting =>
    refine h.moved rfl (fun id => ?_) fun p hmem => ?_
    · simp [places, waiting, List.count_append, Effect.handed?, Work.id?]
    · simpa [places, waiting, Effect.handed?, Work.id?] using h.kept p hmem

/-- Ids are never taken back. -/
theorem used_step (manager : State) (s : Session) (input : Input) :
    s.ids.used <+: (s.step manager input).session.ids.used := by
  refine s.step_induction manager input (P := fun s' _ _ => s.ids.used <+: s'.ids.used)
    (fun s' es queue ho => ?_) fun s₁ es work queue s₂ es' h₁ hd => ?_
  · cases ho with
    | asked ticket request query =>
      show s.ids.used <+: s.ids.advance.used
      rw [RequestId.Source.used_advance]
      exact List.prefix_append _ _
    | _ => exact List.prefix_refl _
  · cases hd <;> exact h₁

/-! ## What is outstanding was asked for after a disconnect -/

/-- **A disconnect comes first**: what is outstanding was asked for after it, and waits behind
it. -/
def Ahead (inputs : List Input) (ticket : Ticket) (behind : List Work)
    (pending : List (RequestId × Operation)) : Prop :=
  ∃ earlier later, inputs = earlier ++ .order ⟨ticket, .disconnect⟩ :: later ∧
    ∀ p ∈ pending, .publish p.1 ∈ behind ∧
      ∃ request, .order ⟨p.2.ticket, .ask request p.2.query⟩ ∈ later

/-- **In which order things are done**, given the inputs so far and what waits: without a connection
everything outstanding waits, and a disconnect that waits or is under way comes first. -/
structure Ranked (s : Session) (inputs : List Input) (works : List Work) : Prop where
  idle : s.state = .disconnected → ∀ p ∈ s.pending, .publish p.1 ∈ works
  ahead : ∀ before ticket behind, works = before ++ .disconnect ticket :: behind →
    Ahead inputs ticket behind s.pending
  closing : s.state = .disconnecting →
    ∃ ticket, s.waiter = some ticket ∧ Ahead inputs ticket works s.pending

theorem Ahead.mono {inputs' : List Input} {ticket : Ticket} {behind behind' : List Work}
    {pending pending' : List (RequestId × Operation)} (h : Ahead inputs ticket behind pending)
    (hi : inputs <+: inputs') (hb : behind ⊆ behind') (hp : pending' ⊆ pending) :
    Ahead inputs' ticket behind' pending' := by
  obtain ⟨earlier, later, rfl, hafter⟩ := h
  obtain ⟨more, rfl⟩ := hi
  refine ⟨earlier, later ++ more, by simp, fun p hmem => ?_⟩
  obtain ⟨hbehind, request, hlater⟩ := hafter p (hp hmem)
  exact ⟨hb hbehind, request, List.mem_append_left _ hlater⟩

/-- An operation that is asked for now comes after every disconnect, and waits behind it. -/
theorem Ahead.asked {input : Input} {ticket : Ticket} {behind : List Work}
    {caller : Ticket} {request : Request} {query : Query}
    (h : Ahead inputs ticket behind s.pending)
    (hi : input = .order ⟨caller, .ask request query⟩) :
    Ahead (inputs ++ [input]) ticket (behind ++ [.publish s.ids.peek])
      (s.asked caller request query).pending := by
  obtain ⟨earlier, later, rfl, hafter⟩ := h
  refine ⟨earlier, later ++ [input], by simp, fun p hmem => ?_⟩
  rcases List.mem_append.1 hmem with hold | hlast
  · obtain ⟨hbehind, request', hlater⟩ := hafter p (List.mem_filter.1 hold).1
    exact ⟨List.mem_append_left _ hbehind, request', List.mem_append_left _ hlater⟩
  · rw [List.mem_singleton.1 hlast, hi]
    exact ⟨by simp, request, by simp [operation]⟩

/-- In a list with one more at its end, everything else stands where it stood. -/
theorem split_last {works before behind : List Work} {work last : Work}
    (h : works ++ [last] = before ++ work :: behind) :
    work = last ∧ behind = [] ∨
      ∃ behind', behind = behind' ++ [last] ∧ works = before ++ work :: behind' := by
  rcases behind.eq_nil_or_concat with rfl | ⟨behind', last', rfl⟩
  · obtain ⟨-, hlast⟩ := List.append_inj' h rfl
    exact .inl ⟨(List.singleton_inj.1 hlast).symm, rfl⟩
  · have h : works ++ [last] = (before ++ work :: behind') ++ [last'] := by simpa using h
    obtain ⟨hworks, hlast⟩ := List.append_inj' h rfl
    exact .inr ⟨behind', by simp [List.singleton_inj.1 hlast], hworks⟩

namespace Ranked
variable {works : List Work}

/-- What waits stays as it is, and nothing outstanding is added. -/
theorem keeps {inputs' : List Input} (h : s.Ranked inputs works) (hi : inputs <+: inputs')
    (hp : s'.pending ⊆ s.pending)
    (hidle : s'.state = .disconnected → s.state = .disconnected ∨ s.state = .disconnecting ∨
      s'.pending = [])
    (hclosing : s'.state = .disconnecting → s.state = .disconnecting ∧ s'.waiter = s.waiter) :
    s'.Ranked inputs' works where
  idle hs p hmem := by
    obtain hold | hold | hnil := hidle hs
    · exact h.idle hold p (hp hmem)
    · obtain ⟨ticket, -, earlier, later, -, hafter⟩ := h.closing hold
      exact (hafter p (hp hmem)).1
    · rw [hnil] at hmem
      cases hmem
  ahead before ticket behind hsplit :=
    (h.ahead before ticket behind hsplit).mono hi (List.Subset.refl _) hp
  closing hs := by
    obtain ⟨hold, hw⟩ := hclosing hs
    obtain ⟨ticket, hwaiter, hahead⟩ := h.closing hold
    exact ⟨ticket, hw.trans hwaiter, hahead.mono hi (List.Subset.refl _) hp⟩

/-- The first of what waits is done, and it is not the publishing of anything that is to wait. -/
theorem drop {work : Work} (h : s.Ranked inputs (work :: works)) (hp : s'.pending = s.pending)
    (hidle : s'.state = .disconnected →
      s.state = .disconnected ∧ ∀ p ∈ s.pending, .publish p.1 ≠ work)
    (hclosing : s'.state ≠ .disconnecting) : s'.Ranked inputs works where
  idle hs p hmem := by
    obtain ⟨hold, hne⟩ := hidle hs
    rw [hp] at hmem
    exact (List.mem_cons.1 (h.idle hold p hmem)).resolve_left (hne p hmem)
  ahead before ticket behind hsplit := by
    rw [hp]
    exact h.ahead (work :: before) ticket behind (by rw [hsplit]; rfl)
  closing hs := absurd hs hclosing

/-- **What an input leads to by itself** keeps the order. -/
theorem opening {input : Input} {returned : Option Effect} {before after : List Effect}
    (h : s.Ranked inputs s.deferred) (ht : s.Tended (before ++ returned.toList ++ after))
    (he : input.Ends returned) (hi : input.isShutDown = false)
    (ho : Opening manager s input s' es queue) :
    s'.Ranked (inputs ++ [input]) (s'.waiting queue) := by
  have hmore : inputs <+: inputs ++ [input] := List.prefix_append _ _
  have hnil (s' : Session) : s'.waiting [] = s'.deferred := List.append_nil _
  cases ho with
  | asked ticket request query =>
    refine ⟨fun hs p hmem => ?_, fun earlier caller behind hsplit => ?_, fun hs => ?_⟩
    · rcases List.mem_append.1 hmem with hold | hlast
      · exact List.mem_append_left _ (h.idle hs p (List.mem_filter.1 hold).1)
      · rw [List.mem_singleton.1 hlast]
        exact List.mem_append_right _ (List.mem_singleton_self _)
    · obtain ⟨heq, -⟩ | ⟨behind', rfl, hold⟩ := split_last hsplit
      · cases heq
      · exact (h.ahead earlier caller behind' hold).asked rfl
    · obtain ⟨caller, hwaiter, hahead⟩ := h.closing hs
      exact ⟨caller, hwaiter, hahead.asked rfl⟩
  | disconnect ticket =>
    -- the disconnect cancels everything, so that nothing is outstanding which came before it
    refine ⟨fun hs p hmem => absurd hmem List.not_mem_nil,
      fun earlier caller behind hsplit => ?_, fun hs => ?_⟩
    · obtain ⟨heq, -⟩ | ⟨behind', rfl, hold⟩ := split_last hsplit
      · obtain rfl : caller = ticket := Work.disconnect.inj heq
        exact ⟨inputs, [], rfl, fun p hmem => absurd hmem List.not_mem_nil⟩
      · exact (h.ahead earlier caller behind' hold).mono hmore
          (List.subset_append_left _ _) (List.nil_subset _)
    · obtain ⟨caller, hwaiter, hahead⟩ := h.closing hs
      exact ⟨caller, hwaiter,
        hahead.mono hmore (List.subset_append_left _ _) (List.nil_subset _)⟩
  | updateCredential ticket credential =>
    refine ⟨fun hs p hmem => List.mem_append_left _ (h.idle hs p hmem),
      fun earlier caller behind hsplit => ?_, fun hs => ?_⟩
    · obtain ⟨heq, -⟩ | ⟨behind', rfl, hold⟩ := split_last hsplit
      · cases heq
      · exact (h.ahead earlier caller behind' hold).mono hmore
          (List.subset_append_left _ _) (List.Subset.refl _)
    · obtain ⟨caller, hwaiter, hahead⟩ := h.closing hs
      exact ⟨caller, hwaiter,
        hahead.mono hmore (List.subset_append_left _ _) (List.Subset.refl _)⟩
  | connected | reconnected =>
    exact h.keeps hmore (List.Subset.refl _) nofun nofun
  | lostConnecting | unconnected | lostReconnecting | unreconnected =>
    exact h.keeps hmore (List.nil_subset _) (fun _ => .inr (.inr rfl)) nofun
  | disconnected result =>
    cases he with
    | disconnected result =>
      have hs : s.state = .disconnecting := by
        have hst := (ht.only rfl).1
        cases hst
        assumption
      exact h.keeps hmore (List.Subset.refl _) (fun _ => .inr (.inl hs)) nofun
  | lost why hs =>
    rw [hnil]
    exact h.keeps hmore (List.nil_subset _) (fun _ => .inr (.inr rfl)) nofun
  | cancelled ticket =>
    rw [hnil]
    exact h.keeps hmore (List.nil_subset _) .inl fun hs => ⟨hs, rfl⟩
  | unpublished | responded =>
    rw [hnil]
    exact h.keeps hmore (List.filter_sublist.subset) .inl fun hs => ⟨hs, rfl⟩
  | dropped | noted | ignored =>
    rw [hnil]
    exact h.keeps hmore (List.Subset.refl _) .inl fun hs => ⟨hs, rfl⟩
  | shutDown => cases hi

/-- **The doing of work** keeps the order. -/
theorem doing {work : Work} (h : s.Ranked inputs (s.waiting (work :: queue)))
    (hq : s.state.isTransitional = false → s.deferred = []) (hd : Doing s work s' es) :
    s'.Ranked inputs (s'.waiting queue) := by
  have hsame : inputs <+: inputs := List.prefix_refl _
  -- nothing has been put off when work is done at once
  have hfirst (hs : s.state.isTransitional = false) (queue : List Work) :
      s.waiting queue = queue := by
    rw [waiting, hq hs, List.nil_append]
  cases hd with
  | deferred work htr =>
    have heq : ({ s with deferred := s.deferred ++ [work] } : Session).waiting queue
        = s.waiting (work :: queue) := by
      simp [waiting]
    rw [heq]
    exact h.keeps hsame (List.Subset.refl _) .inl fun hs => ⟨hs, rfl⟩
  | connecting id op hs hp =>
    have heq : s.waiting (.publish id :: queue) = s.deferred ++ [.publish id] ++ queue := by
      simp [waiting]
    rw [heq] at h
    exact h.keeps hsame (List.Subset.refl _) nofun nofun
  | forgotten id hs hp =>
    rw [hfirst hs] at h ⊢
    refine h.drop rfl (fun hs => ⟨hs, fun p hmem heq => ?_⟩) fun hs' => ?_
    · have hnone := List.lookup_eq_none_iff.1 hp p hmem
      simp [Work.publish.inj heq] at hnone
    · rw [hs'] at hs
      cases hs
  | publishing id op hs hp =>
    have hs' : s.state.isTransitional = false := by rw [hs]; rfl
    rw [hfirst hs'] at h ⊢
    exact h.drop rfl (by simp [hs]) (by simp [hs])
  | closedAlready ticket hs =>
    have hs' : s.state.isTransitional = false := by rw [hs]; rfl
    rw [hfirst hs'] at h ⊢
    exact h.drop rfl (fun hs => ⟨hs, fun p _ => nofun⟩) (by simp [hs])
  | disconnecting ticket hs =>
    have hs' : s.state.isTransitional = false := by rw [hs]; rfl
    have hahead := h.ahead [] ticket queue (hfirst hs' _)
    refine ⟨nofun, fun earlier caller behind hsplit => ?_, fun _ => ⟨ticket, rfl, ?_⟩⟩
    · have hsplit : s.waiting queue = earlier ++ .disconnect caller :: behind := hsplit
      rw [hfirst hs'] at hsplit
      refine h.ahead (.disconnect ticket :: earlier) caller behind ?_
      rw [hfirst hs', hsplit]
      rfl
    · show Ahead inputs ticket (s.waiting queue) s.pending
      rwa [hfirst hs']
  | stored credential ticket hs =>
    have hs' : s.state.isTransitional = false := by rw [hs]; rfl
    show Ranked _ inputs (s.waiting queue)
    rw [hfirst hs'] at h ⊢
    exact h.drop rfl (fun hs => ⟨hs, fun p _ => nofun⟩) (by simp [hs])
  | reconnecting credential ticket hs =>
    have hs' : s.state.isTransitional = false := by rw [hs]; rfl
    show Ranked _ inputs (s.waiting queue)
    rw [hfirst hs'] at h ⊢
    exact h.drop rfl nofun nofun

/-- **A step keeps the order,** unless it is the last one. -/
theorem step (manager : State) {input : Input} {returned : Option Effect}
    {before after : List Effect} (h : s.Ranked inputs s.deferred)
    (ht : s.Tended (before ++ returned.toList ++ after)) (he : input.Ends returned)
    (hi : input.isShutDown = false) :
    (s.step manager input).session.Ranked (inputs ++ [input])
      (s.step manager input).session.deferred := by
  have key := ht.step_induction manager he
    (P := fun s' _ queue => s'.Ranked (inputs ++ [input]) (s'.waiting queue))
    (fun s' es queue ho => h.opening ht he hi ho)
    fun s₁ es work queue s₂ es' ht₁ h₁ hd =>
      h₁.doing (fun hs => (Standing.of_settled ht₁ hs).2.2.1) hd
  simpa [waiting] using key

end Ranked

/-- **A step keeps ids in their places,** if the source does not repeat itself. -/
theorem Placed.step (manager : State) {input : Input} (h : s.Placed record s.deferred)
    (hids : (s.step manager input).session.ids.used.Nodup) :
    (s.step manager input).session.Placed (record ++ (s.step manager input).effects)
      (s.step manager input).session.deferred := by
  -- only the opening takes ids from the source, so that it has taken them all
  have key := s.step_induction manager input
    (P := fun s' es queue => s'.ids.used.Nodup → s'.Placed (record ++ es) (s'.waiting queue))
    (fun s' es queue ho hids => h.opening hids ho) (fun s₁ es work queue s₂ es' h₁ hd hids => ?_)
  · simpa [waiting] using key hids
  · have heq : s₂.ids = s₁.ids := by cases hd <;> rfl
    rw [heq] at hids
    rw [← List.append_assoc]
    exact (h₁ hids).doing hd

/-! ## Courses -/

namespace Course
variable {c c' : Course}

/-- Ids are in their places, as long as the source does not repeat itself. -/
theorem placed (h : Reachable c) (hids : c.session.ids.used.Nodup) :
    c.session.Placed c.record c.session.deferred := by
  induction h with
  | start settings ids =>
    exact ⟨List.nodup_nil, fun id hmem => absurd hmem List.not_mem_nil,
      fun p hmem => absurd hmem List.not_mem_nil⟩
  | @step c c' hr hs ih =>
    cases hs with
    | takes manager input e before after running ends unused fresh split =>
      have hold := ih (hids.sublist (used_step manager c.session input).sublist)
      exact hold.step manager hids
    | late e before after stopped split => exact ih hids

/-- A session that runs does things in their order. -/
theorem ranked (h : Reachable c) (running : c.stopped = false) :
    c.session.Ranked c.inputs c.session.deferred := by
  induction h with
  | start settings ids =>
    exact ⟨fun _ p hmem => absurd hmem List.not_mem_nil,
      fun before ticket behind hsplit => by simp at hsplit, nofun⟩
  | @step c c' hr hs ih =>
    cases hs with
    | takes manager input e before after hrun ends unused fresh split =>
      have ht := tended hr hrun
      rw [split] at ht
      exact (ih hrun).step manager ht ends running
    | late e before after stopped split =>
      have running : c.stopped = false := running
      rw [running] at stopped
      cases stopped

/-- **No operation is stranded, and none is published twice.**  If the source of ids does not repeat
itself, every outstanding operation waits to be published, once, and has not been handed to the
manager, or it has been handed over, once, and waits no more; and no operation at all is handed over
twice.  Work is put off during a change only.  Without a connection nothing is outstanding and
nothing is put off.  While the session disconnects, what is outstanding was asked for after the
order to disconnect, and waits.  Somebody waits for a change exactly while the session disconnects
or changes its credential, and a loss is kept in mind only while it connects. -/
theorem none_stranded_or_published_twice (h : Reachable c) (running : c.stopped = false) :
    (c.session.ids.used.Nodup →
      (∀ p ∈ c.session.pending,
        (queued c.session.deferred).count p.1 = 1 ∧ p.1 ∉ handed c.record ∨
        (handed c.record).count p.1 = 1 ∧ p.1 ∉ queued c.session.deferred) ∧
      (handed c.record).Nodup) ∧
    (c.session.deferred ≠ [] → c.session.state.isTransitional = true) ∧
    (c.session.state = .disconnected → c.session.pending = [] ∧ c.session.deferred = []) ∧
    (c.session.state = .disconnecting →
      ∃ ticket earlier later, c.session.waiter = some ticket ∧
        c.inputs = earlier ++ .order ⟨ticket, .disconnect⟩ :: later ∧
        ∀ p ∈ c.session.pending, .publish p.1 ∈ c.session.deferred ∧
          ∃ request, .order ⟨p.2.ticket, .ask request p.2.query⟩ ∈ later) ∧
    (c.session.waiter.isSome = true ↔
      c.session.state = .disconnecting ∨ c.session.state = .reconnecting) ∧
    (c.session.lossInChange.isSome = true →
      c.session.state = .connecting ∨ c.session.state = .reconnecting) := by
  have ht := tended h running
  have hrank := ranked h running
  have hst : c.session.Standing (changes c.outstanding) := ht
  refine ⟨fun hids => ⟨fun p hp => ?_, ?_⟩, fun hq => ?_, fun hs => ?_, fun hs => ?_, ?_, ?_⟩
  · have hplaced := placed h hids
    have honce := List.nodup_iff_count.1 hplaced.once p.1
    have hsome := List.count_pos_iff.2 (hplaced.kept p hp)
    rw [places, List.count_append] at honce hsome
    by_cases hwaits : p.1 ∈ queued c.session.deferred
    · have hpos := List.count_pos_iff.2 hwaits
      exact .inl ⟨by omega, List.count_eq_zero.1 (by omega)⟩
    · have hzero := List.count_eq_zero.2 hwaits
      exact .inr ⟨by omega, hwaits⟩
  · exact (List.nodup_append.1 (placed h hids).once).1
  · cases htr : c.session.state.isTransitional with
    | true => rfl
    | false => exact absurd (hst.of_settled htr).2.2.1 hq
  · have hq : c.session.deferred = [] := (hst.of_settled (by rw [hs]; rfl)).2.2.1
    refine ⟨List.eq_nil_iff_forall_not_mem.2 fun p hp => ?_, hq⟩
    have hwaits := hrank.idle hs p hp
    rw [hq] at hwaits
    cases hwaits
  · obtain ⟨ticket, hw, earlier, later, hinputs, hafter⟩ := hrank.closing hs
    exact ⟨ticket, earlier, later, hw, hinputs, hafter⟩
  · generalize changes c.outstanding = awaited at hst
    cases hst <;> simp [*]
  · generalize changes c.outstanding = awaited at hst
    cases hst <;> simp [*]

/-- A session that has been told to disconnect while it connected, and now does.  What was asked for
before is cancelled, and what was asked for after it waits. -/
theorem disconnecting_session_strands_nothing :
    ∃ c : Course, Reachable c ∧ c.session.state = .disconnecting ∧
      c.session.pending.map (fun p => p.2.ticket) = [2] ∧
      (∀ p ∈ c.session.pending,
        (queued c.session.deferred).count p.1 = 1 ∧ p.1 ∉ handed c.record ∨
        (handed c.record).count p.1 = 1 ∧ p.1 ∉ queued c.session.deferred) ∧
      ∃ ticket, c.session.waiter = some ticket := by
  let settings : Settings := { idScope := "scope", credential := .signature "signature" }
  have ask := (Reachable.start settings .sequential).step
    (.takes .disconnected (.order ⟨0, .ask ⟨"device", none⟩ .registration⟩) none [] [] rfl
      (.order _) (by decide) (by decide) rfl)
  have disconnect := ask.step
    (.takes .connecting (.order ⟨1, .disconnect⟩) none [_] [] rfl (.order _) (by decide)
      (by decide) rfl)
  have again := disconnect.step
    (.takes .connecting (.order ⟨2, .ask ⟨"device", none⟩ .registration⟩) none [_] [] rfl
      (.order _) (by decide) (by decide) rfl)
  have connected := again.step
    (.takes .connected (.completion (.connected (.ok ()))) (some _) [] [] rfl (.connected _ _)
      (by decide) (by decide) rfl)
  obtain ⟨placed, -, -, closing, -, -⟩ := none_stranded_or_published_twice connected rfl
  obtain ⟨ticket, -, -, hw, -⟩ := closing (by decide +kernel)
  exact ⟨_, connected, by decide +kernel, by decide +kernel, (placed (by decide +kernel)).1,
    ticket, hw⟩

end Course

end Session

end DeviceProvisioning
