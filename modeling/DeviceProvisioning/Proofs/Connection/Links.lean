import DeviceProvisioning.Proofs.Connection.Callers

/-!
# One connection at a time

A manager makes an attempt when it is asked to connect and when the old link of a rotation is gone.
By then no other attempt is under way, and every link that an earlier attempt has yielded is
**over** (`Course.Over`): its closing has come back, it was closed at once, or it has reported that
the broker closed it.

The reason is that a link which is not over is the manager's own, and of its latest generation
(`Manager.Holds`).  The manager only lets go of a link when it is over, and it makes no attempt
while it has one.  `Course.Alone` is what this comes to at the moment of an attempt, in the middle
of a step (`Course.amid`).
-/

namespace DeviceProvisioning.Connection

open Time (Millis)

namespace Course

/-- **A link is over**: it has been closed, gracefully or at once, or it has reported that it is. -/
def Over (c : Course) (generation : Nat) (link : LinkId) : Prop :=
  (.tearDown generation link ∈ c.record ∧ .tearDown generation link ∉ c.outstanding) ∨
    .forceClose link ∈ c.record ∨ .completion (.link generation .closed) ∈ c.inputs

/-- **No connection and no attempt at one**: every link is over. -/
def Alone (c : Course) : Prop :=
  (∀ generation p, .dial generation p ∉ c.outstanding) ∧ ∀ l ∈ c.links, c.Over l.1 l.2

/-- **The course in the middle of a step**: the manager has taken an input, `rest` is what is still
to come back, and `es` are the effects so far. -/
def amid (input : Input) (rest es : List Effect) (c : Course) : Course :=
  { c with
    outstanding := rest ++ lasting es
    links := c.links ++ input.link?.toList
    inputs := c.inputs ++ [input]
    record := c.record ++ es }

/-- **A course goes on by some effects**: something may come back, but no attempt yields a link. -/
structure Grows (c : Course) (es : List Effect) (c' : Course) : Prop where
  links : c'.links = c.links
  inputs : c.inputs ⊆ c'.inputs
  record : c'.record = c.record ++ es
  outstanding : ∀ e ∈ c'.outstanding, e ∈ c.outstanding ∨ e ∈ lasting es

variable {c c' : Course} {input : Input} {rest es es' : List Effect}

theorem grows_amid (hrest : rest ⊆ c.outstanding) (hi : input.link? = none) :
    c.Grows es (c.amid input rest es) where
  links := by simp [amid, hi]
  inputs := List.subset_append_left _ _
  record := rfl
  outstanding _ he := (List.mem_append.1 he).imp_left fun hold => hrest hold

theorem grows_more : (c.amid input rest es).Grows es' (c.amid input rest (es ++ es')) where
  links := rfl
  inputs := List.Subset.refl _
  record := by simp [amid]
  outstanding e he := by simpa [amid, or_assoc] using he

/-- What is still to come back was outstanding before. -/
theorem rest_subset {returned : Option Effect} {before after : List Effect}
    (split : c.outstanding = before ++ returned.toList ++ after) :
    before ++ after ⊆ c.outstanding := by
  rw [split, List.append_assoc]
  exact ((List.Sublist.refl _).append (List.sublist_append_right _ _)).subset

/-- A link that is over stays so, unless it is to be closed again. -/
theorem Over.grows {generation : Nat} {link : LinkId} (h : c.Over generation link)
    (hg : c.Grows es c') (hno : .tearDown generation link ∉ lasting es) :
    c'.Over generation link := by
  obtain ⟨hrecord, hreturned⟩ | hforced | hclosed := h
  · refine .inl ⟨by rw [hg.record]; exact List.mem_append_left _ hrecord, fun hout => ?_⟩
    exact (hg.outstanding _ hout).elim hreturned hno
  · exact .inr (.inl (by rw [hg.record]; exact List.mem_append_left _ hforced))
  · exact .inr (.inr (hg.inputs hclosed))

end Course

/-! ## The link of a manager -/

namespace Manager
open Course (Grows)

/-- **A link that is not over is the manager's own.**  Each generation has one link at most, and
what is outstanding stands in the record. -/
structure Holds (m : Manager) (c : Course) : Prop where
  held : ∀ l ∈ c.links, l.1 = m.generation ∧ m.link = some l.2 ∨ c.Over l.1 l.2
  earlier : ∀ l ∈ c.links, l.1 ≤ m.generation
  awaited : ∀ generation p, .dial generation p ∈ c.outstanding → generation ∉ c.links.map Prod.fst
  distinct : (c.links.map Prod.fst).Nodup
  recorded : c.outstanding ⊆ c.record

variable {m m' : Manager} {c c' : Course} {input : Input} {es es' before after : List Effect}
  {queue : List Order}

/-- **A manager goes on**: it lets go of its link when that is over, it closes no other link, and
its attempts are new. -/
theorem Holds.grows (h : m.Holds c) (hg : c.Grows es c') (hgen : m.generation ≤ m'.generation)
    (hkeeps : ∀ link, m.link = some link →
      m'.generation = m.generation ∧ m'.link = some link ∨ c'.Over m.generation link)
    (hcloses : ∀ generation link, .tearDown generation link ∈ lasting es →
      generation = m'.generation ∧ m'.link = some link)
    (hdials : ∀ generation p, .dial generation p ∈ lasting es → m.generation < generation) :
    m'.Holds c' where
  held l hl := by
    rw [hg.links] at hl
    by_cases hclosing : .tearDown l.1 l.2 ∈ lasting es
    · exact .inl (hcloses l.1 l.2 hclosing)
    · rcases h.held l hl with ⟨hlatest, hlink⟩ | hover
      · rw [hlatest] at hclosing ⊢
        exact (hkeeps l.2 hlink).imp_left fun ⟨heq, hkept⟩ => ⟨heq.symm, hkept⟩
      · exact .inr (hover.grows hg hclosing)
  earlier l hl := Nat.le_trans (h.earlier l (hg.links ▸ hl)) hgen
  awaited generation p hmem := by
    rw [hg.links]
    rcases hg.outstanding _ hmem with hold | hnew
    · exact h.awaited generation p hold
    · intro hlinked
      obtain ⟨l, hl, rfl⟩ := List.mem_map.1 hlinked
      exact Nat.not_le.2 (hdials l.1 p hnew) (h.earlier l hl)
  distinct := by
    rw [hg.links]
    exact h.distinct
  recorded e he := by
    rw [hg.record]
    rcases hg.outstanding e he with hold | hnew
    · exact List.mem_append_left _ (h.recorded hold)
    · exact List.mem_append_right _ (List.mem_filter.1 hnew).1

/-- A manager that has no link and waits for none is alone. -/
theorem Holds.alone (h : m.Holds c) (hl : m.link = none)
    (hd : ∀ generation p, .dial generation p ∉ c.outstanding) : c.Alone := by
  refine ⟨hd, fun l hmem => (h.held l hmem).resolve_left fun hlatest => ?_⟩
  rw [hl] at hlatest
  cases hlatest.2

/-! ## In the middle of a step -/

/-- **One connection at a time**, in the middle of a step: at every attempt there was no other and
no connection. -/
structure Singly (m : Manager) (c : Course) (input : Input) (rest es : List Effect) : Prop where
  holds : m.Holds (c.amid input rest es)
  attempts : ∀ earlier generation p later, es = earlier ++ .dial generation p :: later →
    (c.amid input rest earlier).Alone

variable {rest : List Effect}

/-- The manager starts nothing: it keeps its link, or the link is over. -/
theorem Holds.calm (h : m.Holds c) (hrest : rest ⊆ c.outstanding) (hi : input.link? = none)
    (hgen : m'.generation = m.generation)
    (hkeeps : ∀ link, m.link = some link →
      m'.link = some link ∨ (c.amid input rest es).Over m.generation link)
    (hes : lasting es = []) : m'.Singly c input rest es where
  holds := by
    refine h.grows (Course.grows_amid hrest hi) (Nat.le_of_eq hgen.symm) ?_ ?_ ?_
    · exact fun link hlink => (hkeeps link hlink).imp_left fun hkept => ⟨hgen, hkept⟩
    · simp [hes]
    · simp [hes]
  attempts earlier generation p later heq := by
    rw [heq] at hes
    simp [Effect.isLasting] at hes

/-- The manager goes on without an attempt. -/
theorem Singly.more (h : m.Singly c input rest es) (hgen : m'.generation = m.generation)
    (hlink : m'.link = m.link)
    (hcloses : ∀ generation link, .tearDown generation link ∈ lasting es' →
      generation = m.generation ∧ m.link = some link)
    (hdials : ∀ generation p, .dial generation p ∉ lasting es') :
    m'.Singly c input rest (es ++ es') where
  holds := by
    refine h.holds.grows Course.grows_more (Nat.le_of_eq hgen.symm) ?_ ?_ ?_
    · exact fun link hkept => .inl ⟨hgen, hlink ▸ hkept⟩
    · rw [hgen, hlink]
      exact hcloses
    · exact fun generation p hmem => absurd hmem (hdials generation p)
  attempts earlier generation p later heq := by
    rcases Table.split_of_append heq with ⟨later', hes⟩ | ⟨middle, -, hes⟩
    · exact h.attempts earlier generation p later' hes
    · refine absurd ?_ (hdials generation p)
      simp [hes, Effect.isLasting]

/-- **The manager makes an attempt** when it has no link and waits for no other attempt. -/
theorem Singly.attempting (h : m.Singly c input rest es) (hl : m.link = none)
    (hd : ∀ generation p, .dial generation p ∉ (c.amid input rest es).outstanding)
    (hgen : m'.generation = m.generation + 1) (p : Parameters) :
    m'.Singly c input rest (es ++ Connection.attempting (m.generation + 1) p) where
  holds := by
    refine h.holds.grows Course.grows_more (by omega) ?_ ?_ ?_
    · simp [hl]
    · simp
    · intro generation p' hmem
      obtain ⟨rfl, -⟩ : generation = m.generation + 1 ∧ _ := by simpa using hmem
      omega
  attempts earlier generation p' later heq := by
    -- nothing has become of the manager and its links when the attempt has just been counted
    have hcounted : m.Singly c input rest (es ++ [.count .connectionAttempted]) :=
      h.more rfl rfl (by simp [Effect.isLasting]) (by simp [Effect.isLasting])
    rw [Connection.attempting, List.append_cons] at heq
    rcases Table.split_of_append heq with ⟨later', hes⟩ | ⟨middle, rfl, hmiddle⟩
    · exact hcounted.attempts earlier generation p' later' hes
    · obtain rfl : middle = [] := by
        cases middle with
        | nil => rfl
        | cons e middle => simp at hmiddle
      rw [List.append_nil]
      exact hcounted.holds.alone hl (by simpa [Course.amid, Effect.isLasting] using hd)

/-- A manager that waits for an attempt has no link. -/
theorem Standing.unlinked_of_dial {generation : Nat} {p : Parameters}
    (h : m.Standing [.dial generation p]) : m.link = none := by
  cases h <;> assumption

/-- A manager that waits for a link to close has that link. -/
theorem Standing.link_of_tearDown {generation : Nat} {link : LinkId}
    (h : m.Standing [.tearDown generation link]) : m.link = some link := by
  cases h <;> assumption

/-- **An attempt yields a link.** -/
theorem Holds.established {link : LinkId} {p : Parameters} (h : m.Holds c)
    (split : c.outstanding = before ++ (some (.dial m.generation p)).toList ++ after)
    (honly : m.Standing [.dial m.generation p] ∧
      concerning m.generation (before ++ after) = []) (hes : lasting es = []) :
    { m with
      link := some link, phase := none, state := .connected, waiter := none
      deferred := [] }.Singly c (.completion (.dialled m.generation (.ok link)))
      (before ++ after) es := by
  obtain ⟨hst, hrest⟩ := honly
  have hnone := hst.unlinked_of_dial
  have hdial : .dial m.generation p ∈ c.outstanding := by rw [split]; simp
  -- first the course without the new link
  have hold : m.Holds { c.amid (.completion (.dialled m.generation (.ok link)))
      (before ++ after) es with links := c.links } := by
    refine h.grows ⟨rfl, List.subset_append_left _ _, rfl, ?_⟩ (Nat.le_refl _) ?_ ?_ ?_
    · exact fun e he => (List.mem_append.1 he).imp_left fun hold => Course.rest_subset split hold
    · exact fun link' hl => .inl ⟨rfl, hl⟩
    · simp [hes]
    · simp [hes]
  refine ⟨⟨fun l hl => ?_, fun l hl => ?_, fun generation q hq => ?_, ?_, hold.recorded⟩,
    fun earlier generation q later heq => ?_⟩
  · rcases List.mem_append.1 hl with hl | hl
    · refine .inr ((hold.held l hl).resolve_left fun hlatest => ?_)
      rw [hnone] at hlatest
      cases hlatest.2
    · obtain rfl := List.mem_singleton.1 hl
      exact .inl ⟨rfl, rfl⟩
  · rcases List.mem_append.1 hl with hl | hl
    · exact hold.earlier l hl
    · obtain rfl := List.mem_singleton.1 hl
      exact Nat.le_refl _
  · have hmem : .dial generation q ∈ before ++ after := by simpa [Course.amid, hes] using hq
    refine absurd hmem (no_dial m.generation (fun _ _ => ?_) generation q)
    rw [hrest]
    exact List.not_mem_nil
  · show ((c.links ++ [(m.generation, link)]).map Prod.fst).Nodup
    rw [List.map_append]
    refine List.nodup_append.2 ⟨h.distinct, by simp, fun generation hg generation' hg' heq => ?_⟩
    have hnew : generation' = m.generation := List.mem_singleton.1 hg'
    exact h.awaited _ p hdial (hnew ▸ heq ▸ hg)
  · rw [heq] at hes
    simp [Effect.isLasting] at hes

/-- A link is over when its closing has come back, which the manager waited for. -/
theorem Holds.over_of_tornDown {link : LinkId} (h : m.Holds c)
    (split : c.outstanding = before ++ (some (.tearDown m.generation link)).toList ++ after)
    (hnone : concerning m.generation (before ++ after) = []) (hes : lasting es = []) :
    (c.amid input (before ++ after) es).Over m.generation link := by
  refine .inl ⟨List.mem_append_left _ (h.recorded (by rw [split]; simp)), fun hout => ?_⟩
  have hmem : .tearDown m.generation link ∈ concerning m.generation (before ++ after) :=
    mem_concerning.2 ⟨by simpa [Course.amid, hes] using hout, by simp [Effect.concerns]⟩
  rw [hnone] at hmem
  cases hmem

/-- **The old link of a rotation is over** when the wait for it has ended, and no attempt is
under way. -/
theorem Holds.released {returned : Option Effect} (h : m.Holds c)
    (split : c.outstanding = before ++ returned.toList ++ after)
    (ht : m.Tended (before ++ returned.toList ++ after)) (he : input.Ends returned)
    (hr : Release m input es) :
    { m with link := none }.Singly c input (before ++ after) (es ++ m.failing rotationFailure) ∧
      ∀ generation p, .dial generation p ∉ before ++ after := by
  have hrest := Course.rest_subset split
  cases hr with
  | tornDown result hrot =>
    obtain ⟨link, rfl⟩ := he.of_tornDown
    obtain ⟨hst, hnone⟩ := ht.cons_of_some.only (by simp [Effect.concerns])
    refine ⟨h.calm hrest rfl rfl (fun link' hl => .inr ?_) (by simp), ?_⟩
    · obtain rfl : link = link' := Option.some.inj (hst.link_of_tearDown.symm.trans hl)
      exact h.over_of_tornDown split hnone (by simp)
    · exact no_dial m.generation fun _ _ => by rw [hnone]; simp
  | expired hrot =>
    cases he
    obtain ⟨_, _, _, -, -, haw⟩ := ht.append_of_none.standing.of_rotating hrot
    refine ⟨h.calm hrest rfl rfl (fun link hl => .inr (.inr (.inl ?_))) (by simp), ?_⟩
    · exact List.mem_append_right _ (by simp [closing, hl])
    · exact no_dial m.generation fun _ _ => by rw [haw]; simp

/-- **What an input leads to by itself.** -/
theorem Holds.opening {returned : Option Effect} (h : m.Holds c)
    (split : c.outstanding = before ++ returned.toList ++ after) (ht : m.Tended c.outstanding)
    (he : input.Ends returned) (hi : input.isShutDown = false)
    (ho : Opening m input m' es queue) : m'.Singly c input (before ++ after) es := by
  have hrest := Course.rest_subset split
  have ht' := split ▸ ht
  -- a link that the manager keeps is no matter
  have same (hlink : input.link? = none) (hgen : m'.generation = m.generation)
      (hl : m'.link = m.link) (hes : lasting es = []) : m'.Singly c input (before ++ after) es :=
    h.calm hrest hlink hgen (fun link hkept => .inl (hl ▸ hkept)) hes
  cases ho with
  | order | lapsed | acknowledged | undelivered | message =>
    exact same rfl rfl rfl (by simp [Effect.isLasting])
  | established link =>
    obtain ⟨p, rfl⟩ := he.of_dialled
    exact h.established split (ht'.cons_of_some.only rfl) (by simp [Effect.isLasting])
  | refused error =>
    obtain ⟨p, rfl⟩ := he.of_dialled
    have hnone := (ht'.cons_of_some.only rfl).1.unlinked_of_dial
    refine h.calm hrest rfl rfl (fun link hl => ?_) (by simp [Effect.isLasting])
    rw [hnone] at hl
    cases hl
  | abandoned generation link hne =>
    obtain ⟨p, rfl⟩ := he.of_dialled
    exact absurd (ht'.cons_of_some.only rfl).1.dial_inv.1 hne
  | tornDown result hs =>
    obtain ⟨link, rfl⟩ := he.of_tornDown
    obtain ⟨hst, hnone⟩ := ht'.cons_of_some.only (by simp [Effect.concerns])
    refine h.calm hrest rfl rfl (fun link' hl => .inr ?_) (by simp)
    obtain rfl : link = link' := Option.some.inj (hst.link_of_tearDown.symm.trans hl)
    exact h.over_of_tornDown split hnone (by simp)
  | rotated p hr hc =>
    rename_i earlier
    obtain ⟨hreleased, hnone⟩ := h.released split ht' he hr
    have hes : lasting (earlier ++ m.failing rotationFailure) = [] := by cases hr <;> simp
    refine hreleased.attempting rfl (fun generation p hmem => hnone generation p ?_) rfl p
    simpa [Course.amid, hes] using hmem
  | stranded hr hc => exact absurd hc (ht.standing.not_stranded hr)
  | closed hs =>
    refine h.calm hrest rfl rfl (fun link hl => .inr (.inr (.inr ?_))) (by simp)
    exact List.mem_append_right _ List.mem_cons_self
  | failed error hs =>
    refine h.calm hrest rfl rfl (fun link hl => .inr (.inr (.inl ?_)))
      (by simp [Effect.isLasting])
    exact List.mem_append_right _ (by simp [closing, hl])
  | ignored hig =>
    have hlink : input.link? = none := by
      unfold Input.link?
      split
      · exact absurd hig id
      · rfl
    exact same hlink rfl rfl rfl
  | shutDown => cases hi

/-- **The taking of an order.** -/
theorem Singly.taking {now : Millis} {o : Order} (h : m.Singly c input rest es)
    (ht : m.Tended (rest ++ lasting es)) (htake : Taking now m o m' es') :
    m'.Singly c input rest (es ++ es') := by
  cases htake with
  | deferred | closedAlready | stored | refused | unlinked | openAlready | publishing | subscribing
  | unsubscribing =>
    exact h.more rfl rfl (by simp [Effect.isLasting]) (by simp [Effect.isLasting])
  | connecting p hs hc =>
    obtain ⟨hl, hnone⟩ : m.link = none ∧ concerning m.generation (rest ++ lasting es) = [] := by
      have hst := ht.standing
      generalize concerning m.generation (rest ++ lasting es) = awaited at hst ⊢
      cases hst <;> simp_all
    have htold : m.Singly c input rest (es ++ [.notify (.stateChanged .connecting)]) :=
      h.more rfl rfl (by simp [Effect.isLasting]) (by simp [Effect.isLasting])
    rw [List.append_cons]
    refine htold.attempting hl (fun generation q hmem => ?_) rfl _
    have hmem : .dial generation q ∈ rest ++ lasting es := by
      simpa [Course.amid, Effect.isLasting] using hmem
    refine no_dial m.generation (fun _ _ => ?_) generation q hmem
    rw [hnone]
    exact List.not_mem_nil
  | disconnecting link hs hl hc =>
    refine h.more rfl rfl (fun generation link' hmem => ?_) (by simp [Effect.isLasting])
    obtain ⟨rfl, rfl⟩ : generation = m.generation ∧ link' = link := by
      simpa [Effect.isLasting] using hmem
    exact ⟨rfl, hl⟩
  | rotating link credential hs hl hc =>
    refine h.more (m.renewed_generation credential) (m.renewed_link credential)
      (fun generation link' hmem => ?_) (by simp [Effect.isLasting])
    obtain ⟨rfl, rfl⟩ : generation = m.generation ∧ link' = link := by
      simpa [Effect.isLasting] using hmem
    exact ⟨rfl, hl⟩

/-- **A step makes an attempt only when the manager is alone.** -/
theorem Holds.step {returned : Option Effect} (now : Millis) (h : m.Holds c)
    (split : c.outstanding = before ++ returned.toList ++ after) (ht : m.Tended c.outstanding)
    (he : input.Ends returned) (hi : input.isShutDown = false) :
    (m.step now input).manager.Singly c input (before ++ after) (m.step now input).effects :=
  (split ▸ ht).step_induction now he hi
    (P := fun m' es _ => m'.Singly c input (before ++ after) es)
    (fun _ _ _ ho => h.opening split ht he hi ho)
    fun _ _ _ _ _ _ ht₁ h₁ htake => h₁.taking ht₁ htake

/-- The last step makes no attempt. -/
theorem no_dial_of_shutDown (now : Millis) (m : Manager) (generation : Nat) (p : Parameters) :
    .dial generation p ∉ (m.step now .shutDown).effects := by
  have key := m.step_induction now .shutDown (P := fun _ es queue => lasting es = [] ∧ queue = [])
    (fun _ _ _ ho => ?_) fun _ _ o queue _ _ h₁ _ => absurd h₁.2 (List.cons_ne_nil o queue)
  · intro hmem
    have hlasting : .dial generation p ∈ lasting (m.step now .shutDown).effects :=
      List.mem_filter.2 ⟨hmem, rfl⟩
    rw [key.1] at hlasting
    cases hlasting
  · cases ho with
    | shutDown => exact ⟨by simp [(goodbye m.deferred).2], rfl⟩
    | rotated p hr | stranded hr => cases hr
    | ignored hig => exact absurd hig id

end Manager

/-! ## Courses -/

namespace Course
variable {c : Course}

/-- **A running manager holds** every link that is not over. -/
theorem holds (h : Reachable c) (running : c.stopped = false) : c.manager.Holds c := by
  refine running_induction (P := fun c => c.manager.Holds c) ?_ ?_ ?_ h running
  · exact fun patience ids => ⟨by simp, by simp, by simp, List.nodup_nil, by simp⟩
  · intro c input e before after now hr hrun ih ends _ split hi
    obtain ⟨held, earlier, awaited, distinct, recorded⟩ :=
      (ih.step now split (tended hr hrun) ends hi).holds
    exact ⟨held, earlier, awaited, distinct, recorded⟩
  · intro c e ticket before after granted result _ ih _ split
    refine ih.grows ⟨rfl, List.Subset.refl _, rfl, fun e he => .inl ?_⟩ (Nat.le_refl _)
      (fun link hl => .inl ⟨rfl, hl⟩) (by simp [Effect.isLasting]) (by simp [Effect.isLasting])
    rw [split]
    exact ((List.Sublist.refl _).append (List.sublist_cons_self _ _)).subset he

/-- **One connection at a time.**  A manager makes an attempt only when no other attempt is
outstanding and every link that there has been is over: its closing has come back, or it was closed
at once, or it has reported that it was closed.  An attempt that comes back is always that of the
latest generation.  And at no time are there two links that are not over. -/
theorem one_connection_at_a_time (h : Reachable c) (running : c.stopped = false) :
    (∀ now input returned before after, input.Ends returned → c.Admits input →
      c.outstanding = before ++ returned.toList ++ after →
      (∀ es generation p later,
        (c.manager.step now input).effects = es ++ .dial generation p :: later →
        (c.amid input (before ++ after) es).Alone) ∧
      ∀ generation result, input = .completion (.dialled generation result) →
        generation = c.manager.generation) ∧
    (∀ l ∈ c.links, ∀ l' ∈ c.links, ¬ c.Over l.1 l.2 → ¬ c.Over l'.1 l'.2 → l = l') ∧
    (c.links.map Prod.fst).Nodup := by
  have ht := tended h running
  have hh := holds h running
  refine ⟨fun now input returned before after ends _ split => ⟨fun es generation p later heq => ?_, ?_⟩,
    fun l hl l' hl' hopen hopen' => ?_, hh.distinct⟩
  · cases hi : input.isShutDown with
    | false => exact (hh.step now split ht ends hi).attempts es generation p later heq
    | true =>
      obtain rfl := Input.eq_shutDown hi
      refine absurd ?_ (c.manager.no_dial_of_shutDown now generation p)
      rw [heq]
      simp
  · rintro generation result rfl
    obtain ⟨p, rfl⟩ := ends.of_dialled
    rw [split] at ht
    exact (ht.cons_of_some.only rfl).1.dial_inv.1
  · -- a link that is not over is the manager's
    obtain ⟨hgen, hlink⟩ := (hh.held l hl).resolve_right hopen
    obtain ⟨hgen', hlink'⟩ := (hh.held l' hl').resolve_right hopen'
    exact Prod.ext (hgen.trans hgen'.symm) (Option.some.inj (hlink.symm.trans hlink'))

/-- A rotation whose patience ends: the old link is still closing, and it is closed at once before
the attempt is made. -/
theorem alone_when_patience_ends :
    ∃ c p, Reachable c ∧ c.links = [(1, 5)] ∧ c.outstanding = [.tearDown 1 5] ∧
      (c.manager.step 30000 .expired).effects
        = [.forceClose 5, .count .connectionAttempted] ++ [.dial 2 p] ∧
      (c.amid .expired [.tearDown 1 5] [.forceClose 5, .count .connectionAttempted]).Alone := by
  let p : Parameters := ⟨"mqtt://broker", "device", "user", none, true, 0, none⟩
  have connect := (Reachable.start 30000 .sequential).step
    (.takes 0 (.order ⟨0, .connect p⟩) none [] [] rfl (.order _) (by decide) rfl)
  have dialled := connect.step
    (.takes 0 (.completion (.dialled 1 (.ok 5))) (some _) [] [] rfl (.dialled _ p _) (by decide)
      rfl)
  have update := dialled.step
    (.takes 0 (.order ⟨1, .updateCredential (.signature "token")⟩) none [] [] rfl (.order _)
      (by decide) rfl)
  refine ⟨_, _, update, rfl, rfl, rfl, ?_⟩
  exact ((one_connection_at_a_time update rfl).1 30000 .expired none [.tearDown 1 5] [] .expired
    rfl rfl).1 _ 2 _ [] rfl

end Course

end DeviceProvisioning.Connection
