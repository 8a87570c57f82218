import DeviceProvisioning.Proofs.Connection.Links

/-!
# What is past stays past

Much that a manager does hangs on the number of its latest attempt, and this number only grows.
So what has come to an end under one number does not come back: an attempt is made once and comes
back once, a link that the manager has let go of is never closed by it again, and a deadline that
has passed is replaced, if at all, by one that is set later.

`Course.Since` is how a course goes on, together with what the manager takes meanwhile and when.
`Course.Ages` is what can be said of every such stretch, whatever happens in it.  A stretch of
which more is known is cut where this ends: `Since.leaves` takes an invariant that every input
keeps, apart from those that end it, and finds the first of these.
-/

namespace DeviceProvisioning.Connection

open Time (Millis)

/-! ## Attempts, and links that are closed at once -/

namespace Effect

/-- The number of an attempt that is made. -/
def attempt? : Effect → Option Nat
  | dial generation _ => some generation
  | _ => none

/-- A link that is closed at once. -/
def forced? : Effect → Option LinkId
  | forceClose link => some link
  | _ => none

end Effect

/-- The numbers of the attempts that are made. -/
def attempts (es : List Effect) : List Nat :=
  es.filterMap Effect.attempt?

/-- The links that are closed at once. -/
def forced (es : List Effect) : List LinkId :=
  es.filterMap Effect.forced?

section Views
variable (e : Effect) (es es' : List Effect)

@[simp] theorem attempts_nil : attempts [] = [] := rfl

@[simp] theorem attempts_cons : attempts (e :: es) = e.attempt?.toList ++ attempts es := by
  cases h : e.attempt? <;> simp [attempts, h]

@[simp] theorem attempts_append : attempts (es ++ es') = attempts es ++ attempts es' :=
  List.filterMap_append

@[simp] theorem forced_nil : forced [] = [] := rfl

@[simp] theorem forced_cons : forced (e :: es) = e.forced?.toList ++ forced es := by
  cases h : e.forced? <;> simp [forced, h]

@[simp] theorem forced_append : forced (es ++ es') = forced es ++ forced es' :=
  List.filterMap_append

/-- An attempt goes on until it comes back. -/
theorem attempts_lasting : attempts (lasting es) = attempts es := by
  induction es with
  | nil => rfl
  | cons e es ih => cases e <;> simp [Effect.isLasting, Effect.attempt?, ih]

end Views

/-- Effects that start nothing make no attempt. -/
theorem attempts_eq_nil {es : List Effect} (h : lasting es = []) : attempts es = [] := by
  rw [← attempts_lasting, h, attempts_nil]

theorem mem_attempts {es : List Effect} {generation : Nat} :
    generation ∈ attempts es ↔ ∃ p, .dial generation p ∈ es := by
  refine List.mem_filterMap.trans ⟨fun ⟨e, hmem, he⟩ => ?_, fun ⟨p, hmem⟩ => ⟨_, hmem, rfl⟩⟩
  cases e <;> cases he
  exact ⟨_, hmem⟩

namespace Manager
variable (m : Manager)

@[simp] theorem forced_entering (next : State) : forced (m.entering next) = [] := by
  unfold entering
  split <;> rfl

@[simp] theorem forced_failing (why : Failure) : forced (m.failing why) = [] := by
  refine List.filterMap_eq_nil_iff.2 fun e he => ?_
  obtain rfl | ⟨p, -, rfl⟩ := of_mem_failing he <;> rfl

@[simp] theorem forced_answering (result : Except Failure Unit) :
    forced (m.answering result) = [] := by
  unfold answering
  cases m.waiter <;> rfl

@[simp] theorem forced_closing : forced m.closing = m.link.toList := by
  unfold closing
  cases m.link <;> rfl

@[simp] theorem forced_reporting (why : Option Failure) : forced (m.reporting why) = [] := by
  unfold reporting
  cases m.waiter <;> cases why <;> rfl

@[simp] theorem forced_settling (why : Option Failure) : forced (m.settling why) = [] := by
  simp [settling, Effect.forced?]

end Manager

@[simp] theorem forced_attempting (generation : Nat) (p : Parameters) :
    forced (attempting generation p) = [] := rfl

/-! ## Steps -/

namespace Manager
variable {now : Millis} {m m₁ m' : Manager} {input : Input} {es es' : List Effect}

/-- **What a step leaves of the past**: it makes attempts under new numbers only, it has or closes
no other link than the one before and the one that has just come, and it sets no other deadline
than one from now on. -/
structure Ages (now : Millis) (m : Manager) (input : Input) (m' : Manager) (es : List Effect) :
    Prop where
  patience : m'.patience = m.patience
  generation : m.generation ≤ m'.generation
  attempts : ∀ generation ∈ attempts es, m.generation < generation
  link : ∀ link, m'.link = some link → m.link = some link ∨ ∃ g, input.link? = some (g, link)
  forced : ∀ link ∈ forced es, m.link = some link ∨ ∃ g, input.link? = some (g, link)
  deadline : ∀ d, m'.deadline = some d → m.deadline = some d ∨ d = now + m.patience

/-- A manager that makes no attempt lets its link go, or keeps it. -/
theorem Ages.of_calm (hp : m'.patience = m.patience) (hg : m'.generation = m.generation)
    (hes : lasting es = [])
    (hl : ∀ link, m'.link = some link → m.link = some link ∨ ∃ g, input.link? = some (g, link))
    (hf : ∀ link ∈ Connection.forced es,
      m.link = some link ∨ ∃ g, input.link? = some (g, link))
    (hd : ∀ d, m'.deadline = some d → m.deadline = some d) : m.Ages now input m' es where
  patience := hp
  generation := Nat.le_of_eq hg.symm
  attempts generation hmem := by
    rw [attempts_eq_nil hes] at hmem
    exact absurd hmem List.not_mem_nil
  link := hl
  forced := hf
  deadline d heq := .inl (hd d heq)

/-- What has let a rotation go on is no attempt, and closes no other link than the manager's. -/
theorem release_closes (hr : Release m input es) :
    Connection.attempts es = [] ∧ ∀ link ∈ Connection.forced es, m.link = some link := by
  refine ⟨attempts_eq_nil (release_silent hr).2.2, fun link hmem => ?_⟩
  cases hr with
  | tornDown => exact absurd hmem List.not_mem_nil
  | expired => simpa using hmem

/-- **What an input leads to by itself.** -/
theorem Ages.opening {queue : List Order} (ho : Opening m input m' es queue) :
    m.Ages now input m' es := by
  cases ho with
  | order | message | ignored | acknowledged | undelivered =>
    exact .of_calm rfl rfl rfl (fun _ h => .inl h) (by simp [Effect.forced?]) fun _ h => h
  | lapsed => exact .of_calm rfl rfl rfl (fun _ h => .inl h) (by simp) (by simp)
  | established link =>
    exact .of_calm rfl rfl (by simp [Effect.isLasting])
      (fun link' h => .inr ⟨m.generation, by rw [← Option.some.inj h]; rfl⟩)
      (by simp [Effect.forced?]) fun _ h => h
  | abandoned generation link h =>
    refine .of_calm rfl rfl rfl (fun _ h => .inl h) (fun link' hmem => .inr ⟨generation, ?_⟩)
      fun _ h => h
    rw [List.mem_singleton.1 hmem]
    rfl
  | refused | tornDown | closed =>
    exact .of_calm rfl rfl (by simp [Effect.isLasting]) (by simp [settled])
      (by simp [Effect.forced?]) (by simp [settled])
  | failed error hs =>
    exact .of_calm rfl rfl (by simp [Effect.isLasting]) (by simp [settled])
      (fun link hmem => .inl (by simpa [Effect.forced?] using hmem)) (by simp [settled])
  | stranded hr =>
    exact .of_calm rfl rfl (by simp [(release_silent hr).2.2]) (by simp [settled])
      (fun link hmem => .inl ((release_closes hr).2 link (by simpa using hmem)))
      (by simp [settled])
  | shutDown =>
    refine .of_calm rfl rfl (by simp [(goodbye m.deferred).2]) (by simp)
      (fun link hmem => .inl ?_) fun _ h => h
    have hanswers (orders : List Order) : Connection.forced
        (orders.map fun o => .answer o.ticket (.error Turn.gone)) = [] := by
      induction orders with
      | nil => rfl
      | cons o orders ih => simpa [Effect.forced?] using ih
    simpa [hanswers] using hmem
  | rotated p hr hp =>
    obtain ⟨hattempts, hforced⟩ := release_closes hr
    refine ⟨rfl, Nat.le_succ _, fun generation hmem => ?_, by simp [redialled],
      fun link hmem => ?_, by simp [redialled]⟩
    · obtain rfl : generation = m.generation + 1 := by
        simpa [hattempts, attempts_eq_nil, attempting, Effect.attempt?] using hmem
      exact Nat.lt_succ_self _
    · exact .inl (hforced link (by simpa using hmem))

/-- The manager goes on with the link that it has. -/
theorem Ages.more (h : m.Ages now input m₁ es) (hp : m'.patience = m₁.patience)
    (hg : m₁.generation ≤ m'.generation)
    (ha : ∀ generation ∈ Connection.attempts es', m₁.generation < generation)
    (hl : m'.link = m₁.link) (hf : Connection.forced es' = [])
    (hd : ∀ d, m'.deadline = some d → m₁.deadline = some d ∨ d = now + m₁.patience) :
    m.Ages now input m' (es ++ es') where
  patience := hp.trans h.patience
  generation := Nat.le_trans h.generation hg
  attempts generation hmem := by
    rw [attempts_append] at hmem
    exact (List.mem_append.1 hmem).elim (h.attempts generation) fun hnew =>
      Nat.lt_of_le_of_lt h.generation (ha generation hnew)
  link link hlink := h.link link (hl ▸ hlink)
  forced link hmem := by
    rw [forced_append, hf, List.append_nil] at hmem
    exact h.forced link hmem
  deadline d heq := by
    rw [← h.patience]
    exact (hd d heq).elim (fun hold => h.patience ▸ h.deadline d hold) .inr

/-- **The taking of an order.** -/
theorem Ages.taking {o : Order} (h : m.Ages now input m₁ es) (ht : Taking now m₁ o m' es') :
    m.Ages now input m' (es ++ es') := by
  cases ht with
  | deferred | closedAlready | stored | refused | unlinked | openAlready | disconnecting
  | publishing | subscribing | unsubscribing =>
    exact h.more rfl (Nat.le_refl _) (by simp [Effect.attempt?]) rfl rfl fun _ hd => .inl hd
  | connecting p hs hc =>
    refine h.more rfl (Nat.le_succ _) (fun generation hmem => ?_) rfl rfl fun _ hd => .inl hd
    obtain rfl : generation = m₁.generation + 1 := by
      simpa [attempting, Effect.attempt?] using hmem
    exact Nat.lt_succ_self _
  | rotating link credential hs hl hc =>
    exact h.more (m₁.renewed_patience credential)
      (Nat.le_of_eq (m₁.renewed_generation credential).symm) (by simp [Effect.attempt?])
      (m₁.renewed_link credential) rfl fun d heq => .inr (Option.some.inj heq).symm

/-- **A step leaves the past alone.** -/
theorem ages (now : Millis) (m : Manager) (input : Input) :
    m.Ages now input (m.step now input).manager (m.step now input).effects :=
  m.step_induction now input (P := fun m' es _ => m.Ages now input m' es)
    (fun _ _ _ ho => .opening ho) fun _ _ _ _ _ _ h ht => h.taking ht

end Manager

/-! ## Courses -/

namespace Course
variable {c c₀ c₁ c' : Course} {trace : List (Millis × Input)}

/-- **How a course goes on**, with the inputs that the manager takes meanwhile, each with the time
at which it does. -/
inductive Since (c₀ : Course) : List (Millis × Input) → Course → Prop where
  | refl : Since c₀ [] c₀
  | takes {c : Course} {trace : List (Millis × Input)} (h : Since c₀ trace c) (now : Millis)
      (input : Input) (e : Option Effect) (before after : List Effect)
      (running : c.stopped = false) (ends : input.Ends e) (admits : c.Admits input)
      (split : c.outstanding = before ++ e.toList ++ after) :
    Since c₀ (trace ++ [(now, input)]) (c.follow now input (before ++ after))
  | other {c c' : Course} {trace : List (Millis × Input)} (h : Since c₀ trace c)
      (step : Step c c') (own : c'.inputs = c.inputs) : Since c₀ trace c'

theorem Since.reachable (h : c₀.Since trace c) (hr : Reachable c₀) : Reachable c := by
  induction h with
  | refl => exact hr
  | takes h now input e before after running ends admits split ih =>
    exact ih.step (.takes _ _ _ _ _ running ends admits split)
  | other h step own ih => exact ih.step step

/-- What answers its caller by itself, or comes back late. -/
structure Aside (c c' : Course) (es : List Effect) : Prop where
  manager : c'.manager = c.manager
  stopped : c'.stopped = c.stopped
  outstanding : c'.outstanding ⊆ c.outstanding
  links : c'.links = c.links
  record : c'.record = c.record ++ es
  attempts : Connection.attempts es = []
  forced : Connection.forced es = []

/-- **A step in which the manager takes nothing** leaves it as it is. -/
theorem Step.aside (hs : Step c c') (own : c'.inputs = c.inputs) : ∃ es, c.Aside c' es := by
  have fewer {before after : List Effect} {e : Effect}
      (split : c.outstanding = before ++ e :: after) : before ++ after ⊆ c.outstanding := by
    rw [split]
    exact ((List.Sublist.refl _).append (List.sublist_cons_self _ _)).subset
  cases hs with
  | takes => simp [follow] at own
  | subscribed _ _ _ _ _ _ _ split | unsubscribed _ _ _ _ _ _ split =>
    exact ⟨_, rfl, rfl, fewer split, rfl, rfl, rfl, rfl⟩
  | late _ _ _ _ _ split =>
    exact ⟨[], rfl, rfl, fewer split, rfl, (List.append_nil _).symm, rfl, rfl⟩

/-- A manager that runs has run all the time. -/
theorem Since.running (h : c₀.Since trace c) (running : c.stopped = false) :
    c₀.stopped = false := by
  induction h with
  | refl => exact running
  | takes h now input e before after hrun ends admits split ih => exact ih hrun
  | other h step own ih =>
    obtain ⟨es, haside⟩ := step.aside own
    exact ih (haside.stopped ▸ running)

/-- **Where a stretch of a course ends.**  An invariant that the manager keeps, whatever it takes
apart from some inputs, holds until it takes one of these.  What the first of them leads to holds
then, and the course goes on from there. -/
theorem Since.leaves (leaving : Input → Prop) {P : Course → Prop} {Q : Input → Course → Prop}
    (takes : ∀ {c : Course} {input : Input} {e : Option Effect} {before after : List Effect}
      (now : Millis), Reachable c → c.stopped = false → P c → input.Ends e → c.Admits input →
      c.outstanding = before ++ e.toList ++ after → input.isShutDown = false →
      (leaving input → Q input (c.follow now input (before ++ after))) ∧
        (¬ leaving input → P (c.follow now input (before ++ after))))
    (aside : ∀ {c c' : Course} {es : List Effect}, P c → c.Aside c' es → P c')
    (hr : Reachable c₀) (h₀ : P c₀) (h : c₀.Since trace c) (running : c.stopped = false) :
    (P c ∧ ∀ i ∈ trace, ¬ leaving i.2) ∨
      ∃ earlier i later c₁, trace = earlier ++ i :: later ∧ (∀ j ∈ earlier, ¬ leaving j.2) ∧
        leaving i.2 ∧ c₀.Since (earlier ++ [i]) c₁ ∧ Q i.2 c₁ ∧ c₁.Since later c := by
  induction h with
  | refl => exact .inl ⟨h₀, by simp⟩
  | @takes c trace h now input e before after hrun ends admits split ih =>
    obtain ⟨hp, hnone⟩ | ⟨earlier, i, later, c₁, rfl, hnone, hi, h₁, hq, h₂⟩ := ih hrun
    · obtain ⟨hleaves, hstays⟩ := takes now (h.reachable hr) hrun hp ends admits split running
      by_cases hi : leaving input
      · exact .inr ⟨trace, (now, input), [], _, rfl, hnone, hi,
          h.takes _ _ _ _ _ hrun ends admits split, hleaves hi, .refl⟩
      · refine .inl ⟨hstays hi, fun j hj => ?_⟩
        rcases List.mem_append.1 hj with hj | hj
        · exact hnone j hj
        · rwa [List.mem_singleton.1 hj]
    · exact .inr ⟨earlier, i, later ++ [(now, input)], c₁, by simp, hnone, hi, h₁, hq,
        h₂.takes _ _ _ _ _ hrun ends admits split⟩
  | @other c c' trace h step own ih =>
    obtain ⟨es, haside⟩ := step.aside own
    obtain ⟨hp, hnone⟩ | ⟨earlier, i, later, c₁, rfl, hnone, hi, h₁, hq, h₂⟩ :=
      ih (haside.stopped ▸ running)
    · exact .inl ⟨aside hp haside, hnone⟩
    · exact .inr ⟨earlier, i, later, c₁, rfl, hnone, hi, h₁, hq, h₂.other step own⟩

/-! ### What is kept -/

/-- A link that comes is new. -/
theorem Admits.new {input : Input} {generation : Nat} {link : LinkId} (h : c.Admits input)
    (hl : input.link? = some (generation, link)) : link ∉ c.links.map Prod.snd := by
  unfold Input.link? at hl
  split at hl
  · obtain ⟨-, rfl⟩ : _ ∧ _ := by simpa using hl
    exact h
  · cases hl

/-- **What every stretch of a course leaves of the past.** -/
structure Ages (c : Course) (trace : List (Millis × Input)) (c' : Course) (es : List Effect) :
    Prop where
  record : c'.record = c.record ++ es
  patience : c'.manager.patience = c.manager.patience
  generation : c.manager.generation ≤ c'.manager.generation
  attempts : ∀ generation ∈ Connection.attempts es, c.manager.generation < generation
  deadline : ∀ d, c'.manager.deadline = some d →
    c.manager.deadline = some d ∨ ∃ i ∈ trace, d = i.1 + c.manager.patience
  links : c.links ⊆ c'.links
  link : ∀ link ∈ c.links.map Prod.snd, c'.manager.link = some link → c.manager.link = some link
  forced : ∀ link ∈ c.links.map Prod.snd, link ∈ Connection.forced es →
    c.manager.link = some link
  /-- An attempt that has come back does not come back again. -/
  returned : ∀ generation ≤ c.manager.generation, (∀ p, .dial generation p ∉ c.outstanding) →
    (∀ p, .dial generation p ∉ c'.outstanding) ∧
      ∀ i ∈ trace, ∀ result, i.2 ≠ .completion (.dialled generation result)

theorem Ages.takes {es : List Effect} {now : Millis} {input : Input} {e : Option Effect}
    {before after : List Effect} (h : c₀.Ages trace c es) (ends : input.Ends e)
    (admits : c.Admits input) (split : c.outstanding = before ++ e.toList ++ after) :
    c₀.Ages (trace ++ [(now, input)]) (c.follow now input (before ++ after))
      (es ++ (c.manager.step now input).effects) := by
  obtain ⟨hpatience, hgeneration, hattempts, hlink, hforced, hdeadline⟩ :=
    c.manager.ages now input
  have hold {link : LinkId} (hmem : link ∈ c₀.links.map Prod.snd)
      (hor : c.manager.link = some link ∨ ∃ g, input.link? = some (g, link)) :
      c₀.manager.link = some link := by
    refine hor.elim (h.link link hmem) fun ⟨g, hnew⟩ => absurd ?_ (admits.new hnew)
    exact List.map_subset _ h.links hmem
  refine ⟨?_, hpatience.trans h.patience, Nat.le_trans h.generation hgeneration, ?_, ?_, ?_, ?_,
    ?_, ?_⟩
  · show c.record ++ _ = _
    rw [h.record, List.append_assoc]
  · intro generation hmem
    rw [attempts_append] at hmem
    exact (List.mem_append.1 hmem).elim (h.attempts generation) fun hnew =>
      Nat.lt_of_le_of_lt h.generation (hattempts generation hnew)
  · intro d hd
    rcases hdeadline d hd with hkept | hnew
    · exact (h.deadline d hkept).imp_right fun ⟨i, hi, heq⟩ => ⟨i, List.mem_append_left _ hi, heq⟩
    · exact .inr ⟨_, List.mem_append_right _ (List.mem_singleton_self _), by rw [hnew, h.patience]⟩
  · exact fun l hl => List.mem_append_left _ (h.links hl)
  · exact fun link hmem hl => hold hmem (hlink link hl)
  · intro link hmem hf
    rw [forced_append] at hf
    exact (List.mem_append.1 hf).elim (h.forced link hmem) fun hnew => hold hmem (hforced link hnew)
  · intro generation hle hnone
    obtain ⟨hout, htrace⟩ := h.returned generation hle hnone
    refine ⟨fun p hmem => ?_, fun i hi result heq => ?_⟩
    · rcases List.mem_append.1 hmem with hmem | hmem
      · exact hout p (rest_subset split hmem)
      · have := hattempts generation (mem_attempts.2 ⟨p, (List.mem_filter.1 hmem).1⟩)
        have := h.generation
        omega
    · rcases List.mem_append.1 hi with hi | hi
      · exact htrace i hi result heq
      · obtain rfl := List.mem_singleton.1 hi
        obtain rfl : input = _ := heq
        obtain ⟨p, rfl⟩ := ends.of_dialled
        exact hout p (by rw [split]; simp)

/-- **What is past stays past**, however a course goes on. -/
theorem Since.ages (h : c₀.Since trace c) : ∃ es, c₀.Ages trace c es := by
  induction h with
  | refl =>
    exact ⟨[], (List.append_nil _).symm, rfl, Nat.le_refl _, by simp, fun _ hd => .inl hd,
      List.Subset.refl _, fun _ _ hl => hl, by simp, fun _ _ hnone => ⟨hnone, by simp⟩⟩
  | takes h now input e before after running ends admits split ih =>
    obtain ⟨es, ih⟩ := ih
    exact ⟨_, ih.takes ends admits split⟩
  | other h step own ih =>
    obtain ⟨es, ih⟩ := ih
    obtain ⟨es', hm, -, hout, hlinks, hrecord, hattempts, hforced⟩ := step.aside own
    refine ⟨es ++ es', ?_, ?_, ?_, ?_, ?_, ?_, ?_, ?_, fun generation hle hnone => ?_⟩
    · rw [hrecord, ih.record, List.append_assoc]
    · rw [hm, ih.patience]
    · rw [hm]
      exact ih.generation
    · simpa [hattempts] using ih.attempts
    · rw [hm]
      exact ih.deadline
    · rw [hlinks]
      exact ih.links
    · rw [hm]
      exact ih.link
    · simpa [hforced] using ih.forced
    · obtain ⟨hgone, htrace⟩ := ih.returned generation hle hnone
      exact ⟨fun p hmem => hgone p (hout hmem), htrace⟩

/-- **The link of a manager has been yielded** by an attempt. -/
theorem link_yielded (h : Reachable c) {link : LinkId} (hl : c.manager.link = some link) :
    link ∈ c.links.map Prod.snd := by
  induction h with
  | start => cases hl
  | @step c c' hr hs ih =>
    by_cases own : c'.inputs = c.inputs
    · obtain ⟨es, haside⟩ := hs.aside own
      rw [haside.links]
      exact ih (haside.manager ▸ hl)
    · cases hs with
      | takes now input e before after running ends admits split =>
        show link ∈ (c.links ++ input.link?.toList).map Prod.snd
        rw [List.map_append]
        rcases (c.manager.ages now input).link link hl with hold | ⟨g, hnew⟩
        · exact List.mem_append_left _ (ih hold)
        · exact List.mem_append_right _ (by simp [hnew])
      | subscribed | unsubscribed | late => exact absurd rfl own

end Course
end DeviceProvisioning.Connection
