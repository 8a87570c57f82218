import DeviceProvisioning.Proofs.Tandem.Basic

/-!
# Playing a tandem

`Tandem.Step` is a relation.  This module gives the same steps as a function: a `Move` says which
of the things that may happen does happen, and `Tandem.play` is what comes of it, if it may happen.
`Tandem.step_iff_play` says that the moves are just the steps.

So a run of a tandem can be given as a list of moves, and what it comes to can be computed
(`Tandem.exists_effect`).
-/

namespace DeviceProvisioning

open Time (Millis)

/-! ## Places in a list -/

section Places
variable {α : Type} {l before after : List α} {i : Nat} {a : α}

/-- An entry of a list stands between those before it and those after it. -/
theorem split_of_getElem? (h : l[i]? = some a) :
    l = l.take i ++ a :: l.drop (i + 1) ∧ l.eraseIdx i = l.take i ++ l.drop (i + 1) ∧
      ∀ b, l.set i b = l.take i ++ b :: l.drop (i + 1) := by
  obtain ⟨hi, rfl⟩ := List.getElem?_eq_some_iff.1 h
  refine ⟨?_, List.eraseIdx_eq_take_drop_succ l i, fun b => ?_⟩
  · rw [← List.drop_eq_getElem_cons hi, List.take_append_drop]
  · exact List.set_eq_take_append_cons_drop.trans (if_pos hi)

/-- What stands in the middle of a list has as many entries before it as there are. -/
theorem getElem?_of_split (h : l = before ++ a :: after) :
    l[before.length]? = some a ∧ l.eraseIdx before.length = before ++ after ∧
      ∀ b, l.set before.length b = before ++ b :: after := by
  subst h
  refine ⟨by simp, ?_, by simp⟩
  rw [List.eraseIdx_append_of_length_le (Nat.le_refl _), Nat.sub_self]
  rfl

/-- What comes of something only if a condition holds. -/
theorem of_guarded {p : Prop} [Decidable p] {b : α} (h : (if p then some a else none) = some b) :
    p ∧ a = b := by
  obtain ⟨hp, hab⟩ := Option.ite_none_right_eq_some.1 h
  exact ⟨hp, Option.some.inj hab⟩

end Places

namespace Connection

/-! ## The manager -/

/-- Whether an effect comes back with an input. -/
def Input.isEnd : Input → Option Effect → Bool
  | .completion (.dialled g _), some (.dial g' _)
  | .completion (.tornDown g _), some (.tearDown g' _) => g = g'
  | .completion (.published id _), some (.publish _ id' ..) => id = id'
  | .order _, none | .completion (.link ..), none | .expired, none | .shutDown, none => true
  | _, _ => false

theorem Input.isEnd_iff {input : Input} {e : Option Effect} :
    input.isEnd e = true ↔ input.Ends e := by
  constructor
  · intro h
    unfold isEnd at h
    split at h
    · obtain rfl := of_decide_eq_true h
      exact .dialled _ _ _
    · obtain rfl := of_decide_eq_true h
      exact .tornDown _ _ _
    · obtain rfl := of_decide_eq_true h
      exact .published _ _ _ _ _ _
    · exact .order _
    · exact .event _ _
    · exact .expired
    · exact .shutDown
    · cases h
  · intro h
    cases h <;> simp [isEnd]

namespace Course

/-- **What a manager's course may do next.** -/
inductive Move where
  /-- The manager takes an input, with which the effect at this place comes back. -/
  | takes (now : Millis) (input : Input) (place : Option Nat)
  /-- The broker answers a subscription, or the end of one. -/
  | replies (place : Nat) (result : Except LinkError Unit)
  | late (place : Nat)

/-- **What comes of a move**, if it may be made. -/
def play (c : Course) : Move → Option Course
  | .takes now input none =>
    if c.stopped = false ∧ input.isEnd none ∧ c.Admits input then
      some (c.follow now input c.outstanding)
    else none
  | .takes now input (some i) =>
    match c.outstanding[i]? with
    | some e =>
      if c.stopped = false ∧ input.isEnd (some e) ∧ c.Admits input then
        some (c.follow now input (c.outstanding.eraseIdx i))
      else none
    | none => none
  | .replies i result =>
    match c.outstanding[i]? with
    | some (.subscribe link filter _ ticket) =>
      some
        { c with
          outstanding := c.outstanding.eraseIdx i
          granted := c.grants link filter result
          record := c.record ++ [.answer ticket (result.mapError .ofLink)] }
    | some (.unsubscribe _ _ ticket) =>
      some
        { c with
          outstanding := c.outstanding.eraseIdx i
          record := c.record ++ [.answer ticket (result.mapError .ofLink)] }
    | _ => none
  | .late i =>
    match c.outstanding[i]? with
    | some e =>
      if c.stopped = true ∧ e.caller? = none then
        some { c with outstanding := c.outstanding.eraseIdx i }
      else none
    | none => none

variable {c c' : Course}

/-- A move is a step. -/
theorem step_of_play {move : Move} (h : c.play move = some c') : Step c c' := by
  unfold play at h
  split at h
  · -- an input with which nothing comes back
    rename_i now input
    obtain ⟨⟨running, hend, admits⟩, rfl⟩ := of_guarded h
    have hs := Step.takes (c := c) now input none c.outstanding [] running
      (Input.isEnd_iff.1 hend) admits (by simp)
    rwa [List.append_nil] at hs
  · split at h
    · rename_i e he
      obtain ⟨⟨running, hend, admits⟩, rfl⟩ := of_guarded h
      obtain ⟨split, hrest, -⟩ := split_of_getElem? he
      rw [hrest]
      exact .takes _ _ (some e) _ _ running (Input.isEnd_iff.1 hend) admits (by simpa using split)
    · cases h
  · split at h
    · rename_i link filter qos ticket he
      obtain ⟨split, hrest, -⟩ := split_of_getElem? he
      rw [← Option.some.inj h, hrest]
      exact .subscribed link filter qos ticket _ _ _ split
    · rename_i link filter ticket he
      obtain ⟨split, hrest, -⟩ := split_of_getElem? he
      rw [← Option.some.inj h, hrest]
      exact .unsubscribed link filter ticket _ _ _ split
    · cases h
  · split at h
    · rename_i e he
      obtain ⟨⟨stopped, silent⟩, rfl⟩ := of_guarded h
      obtain ⟨split, hrest, -⟩ := split_of_getElem? he
      rw [hrest]
      exact .late e _ _ stopped silent split
    · cases h

/-- A step is a move. -/
theorem play_of_step (hs : Step c c') : ∃ move, c.play move = some c' := by
  cases hs with
  | takes now input e before after running ends admits split =>
    cases e with
    | none =>
      refine ⟨.takes now input none, ?_⟩
      have hrest : c.outstanding = before ++ after := by simpa using split
      rw [play, if_pos ⟨running, Input.isEnd_iff.2 ends, admits⟩, hrest]
    | some e =>
      obtain ⟨he, hrest, -⟩ := getElem?_of_split (show c.outstanding = before ++ e :: after by
        simpa using split)
      refine ⟨.takes now input (some before.length), ?_⟩
      simp only [play, he]
      rw [if_pos ⟨running, Input.isEnd_iff.2 ends, admits⟩, hrest]
  | subscribed link filter qos ticket result before after split
  | unsubscribed link filter ticket result before after split =>
    obtain ⟨he, hrest, -⟩ := getElem?_of_split split
    exact ⟨.replies before.length result, by simp only [play, he, hrest]⟩
  | late e before after stopped silent split =>
    obtain ⟨he, hrest, -⟩ := getElem?_of_split split
    refine ⟨.late before.length, ?_⟩
    simp only [play, he]
    rw [if_pos ⟨stopped, silent⟩, hrest]

end Course
end Connection

/-! ## Both together -/

open Session (Call Duty Stage)

/-- Whether a call is done. -/
def Session.Stage.isDone : Stage → Bool
  | done _ => true
  | ready _ | waiting .. => false

theorem Session.Stage.isDone_iff {stage : Stage} :
    stage.isDone = true ↔ ∃ result, stage = .done result := by
  cases stage <;> simp [isDone]

namespace Tandem

/-- **What may happen in a tandem.** -/
inductive Move where
  | order (order : Session.Order)
  /-- The session hears the first notice that it has not heard yet. -/
  | hears
  /-- The session takes the result of the call at this place. -/
  | completes (place : Nat)
  | shutDown
  /-- The call at this place gives its order, or is refused. -/
  | asks (place : Nat)
  /-- The call at this place has the answer that stands at another place of the record. -/
  | answered (place : Nat) (found : Nat)
  /-- The manager takes the first order that waits for it. -/
  | takes (now : Millis)
  | manager (move : Connection.Course.Move)

/-- **What comes of a move**, if it may be made. -/
def play (t : Tandem) : Move → Option Tandem
  | .order order =>
    if t.stopped = false then some (t.advance (.order order) t.calls) else none
  | .hears =>
    match t.unheard with
    | notice :: _ =>
      if t.stopped = false then
        some { t.advance (.notice notice) t.calls with heard := t.heard + 1 }
      else none
    | [] => none
  | .completes i =>
    match t.calls[i]? with
    | some ⟨effect, .done result⟩ =>
      match effect.completion? result with
      | some completion =>
        if t.stopped = false then
          some (t.advance (.completion completion) (t.calls.eraseIdx i))
        else none
      | none => none
    | _ => none
  | .shutDown =>
    if t.stopped = false then
      some
        { t.advance .shutDown t.calls with
          orders := t.orders ++ [⟨t.given, .disconnect⟩]
          given := t.given + 1
          stopped := true }
    else none
  | .asks i =>
    match t.calls[i]? with
    | some ⟨effect, .ready duty⟩ =>
      match duty.command.check with
      | .ok () =>
        some
          { t with
            calls := t.calls.set i ⟨effect, .waiting duty t.given⟩
            orders := t.orders ++ [⟨t.given, duty.command⟩]
            given := t.given + 1 }
      | .error why => some { t with calls := t.calls.set i ⟨effect, duty.next (.error why)⟩ }
    | _ => none
  | .answered i j =>
    match t.calls[i]?, t.course.record[j]? with
    | some ⟨effect, .waiting duty ticket⟩, some (.answer ticket' result) =>
      if ticket = ticket' then some { t with calls := t.calls.set i ⟨effect, duty.next result⟩ }
      else none
    | _, _ => none
  | .takes now =>
    match t.orders with
    | order :: rest =>
      if t.course.stopped = false then
        some
          { t with
            course := t.course.follow now (.order order) t.course.outstanding
            orders := rest }
      else none
    | [] => none
  | .manager move =>
    match t.course.play move with
    | some course =>
      if course.taken = t.course.taken ∧ (course.stopped = true →
          t.stopped = true ∧ t.orders = [] ∧ ∀ call ∈ t.calls, call.stage.isDone = true) then
        some { t with course }
      else none
    | none => none

/-- Whether the session takes an input in a move, and is not shut down. -/
def Move.isTaking : Move → Bool
  | order _ | hears | completes _ => true
  | shutDown | asks _ | answered .. | takes _ | manager _ => false

/-- What the session takes in a move. -/
def input? (t : Tandem) : Move → Option Session.Input
  | .order order => some (.order order)
  | .hears => t.unheard.head?.map .notice
  | .completes i =>
    match t.calls[i]? with
    | some ⟨effect, .done result⟩ => (effect.completion? result).map .completion
    | _ => none
  | .shutDown => some .shutDown
  | .asks _ | .answered .. | .takes _ | .manager _ => none

/-- What comes of several moves, one after the other. -/
def plays (t : Tandem) (moves : List Move) : Option Tandem :=
  moves.foldlM play t

variable {t t' : Tandem}

/-- **In a move in which the session takes an input,** it does so. -/
theorem takes_of_play {move : Move} (h : t.play move = some t') (hm : move.isTaking) :
    ∃ input, t.input? move = some input ∧ t.Takes input t' := by
  cases move with
  | order order =>
    obtain ⟨running, rfl⟩ := of_guarded h
    exact ⟨_, rfl, .order order running⟩
  | hears =>
    simp only [play] at h
    split at h
    · rename_i notice rest first
      obtain ⟨running, rfl⟩ := of_guarded h
      exact ⟨_, by simp [input?, first], .hears notice rest running first⟩
    · cases h
  | completes i =>
    simp only [play] at h
    split at h
    · rename_i effect result hi
      split at h
      · rename_i completion comes
        obtain ⟨running, rfl⟩ := of_guarded h
        obtain ⟨split, hrest, -⟩ := split_of_getElem? hi
        rw [hrest]
        exact ⟨_, by simp [input?, hi, comes],
          .completes effect result completion _ _ running split comes⟩
      · cases h
    · cases h
  | shutDown | asks | answered | takes | manager => cases hm

/-- In any other move the session stays as it is, unless it is shut down. -/
theorem aside_of_play {move : Move} (h : t.play move = some t') (hm : move.isTaking = false)
    (hne : move ≠ .shutDown) :
    t.input? move = none ∧ t'.session = t.session ∧ t'.heard = t.heard ∧
      t'.stopped = t.stopped := by
  cases move with
  | order | hears | completes => cases hm
  | shutDown => exact absurd rfl hne
  | asks | answered | takes | manager =>
    refine ⟨rfl, ?_⟩
    simp only [play] at h
    grind

/-- A move is a step. -/
theorem step_of_play {move : Move} (h : t.play move = some t') : Step t t' := by
  cases move with
  | order | hears | completes =>
    obtain ⟨input, -, htakes⟩ := takes_of_play h rfl
    exact htakes.step
  | shutDown =>
    obtain ⟨running, rfl⟩ := of_guarded h
    exact .shutDown running
  | asks i =>
    simp only [play] at h
    split at h
    · rename_i effect duty hi
      obtain ⟨split, -, hset⟩ := split_of_getElem? hi
      split at h
      · rename_i accepted
        rw [← Option.some.inj h, hset]
        exact .asks effect duty _ _ split accepted
      · rename_i why rejected
        rw [← Option.some.inj h, hset]
        exact .refused effect duty why _ _ split rejected
    · cases h
  | answered i j =>
    simp only [play] at h
    split at h
    · rename_i effect duty ticket ticket' result hi hj
      obtain ⟨rfl, rfl⟩ := of_guarded h
      obtain ⟨split, -, hset⟩ := split_of_getElem? hi
      rw [hset]
      exact .answered effect duty ticket result _ _ split (List.mem_of_getElem? hj)
    · cases h
  | takes now =>
    simp only [play] at h
    split at h
    · obtain ⟨running, rfl⟩ := of_guarded h
      exact .takes now _ _ running ‹_›
    · cases h
  | manager move =>
    simp only [play] at h
    split at h
    · rename_i course hc
      obtain ⟨⟨own, held⟩, rfl⟩ := of_guarded h
      refine .manager course (Connection.Course.step_of_play hc) own fun hstop => ?_
      obtain ⟨hstopped, horders, hdone⟩ := held hstop
      exact ⟨hstopped, horders, fun call hcall => Stage.isDone_iff.1 (hdone call hcall)⟩
    · cases h

/-- A step is a move. -/
theorem play_of_step (hs : Step t t') : ∃ move, t.play move = some t' := by
  cases hs with
  | order order running => exact ⟨.order order, if_pos running⟩
  | hears notice rest running first =>
    refine ⟨.hears, ?_⟩
    simp only [play, first]
    rw [if_pos running]
  | completes effect result completion before after running split comes =>
    obtain ⟨hi, hrest, -⟩ := getElem?_of_split split
    refine ⟨.completes before.length, ?_⟩
    simp only [play, hi, comes]
    rw [if_pos running, hrest]
  | shutDown running => exact ⟨.shutDown, if_pos running⟩
  | asks effect duty before after split accepted =>
    obtain ⟨hi, -, hset⟩ := getElem?_of_split split
    exact ⟨.asks before.length, by simp only [play, hi, accepted, hset]⟩
  | refused effect duty why before after split rejected =>
    obtain ⟨hi, -, hset⟩ := getElem?_of_split split
    exact ⟨.asks before.length, by simp only [play, hi, rejected, hset]⟩
  | answered effect duty ticket result before after split answer =>
    obtain ⟨hi, -, hset⟩ := getElem?_of_split split
    obtain ⟨j, hj⟩ := List.mem_iff_getElem?.1 answer
    refine ⟨.answered before.length j, ?_⟩
    simp only [play, hi, hj, hset, if_true]
  | takes now order rest running first =>
    refine ⟨.takes now, ?_⟩
    simp only [play, first]
    rw [if_pos running]
  | manager course step own held =>
    obtain ⟨move, hc⟩ := Connection.Course.play_of_step step
    refine ⟨.manager move, ?_⟩
    simp only [play, hc]
    refine if_pos ⟨own, fun hstop => ?_⟩
    obtain ⟨hstopped, horders, hdone⟩ := held hstop
    exact ⟨hstopped, horders, fun call hcall => Stage.isDone_iff.2 (hdone call hcall)⟩

/-- **The moves are just the steps.** -/
theorem step_iff_play : Step t t' ↔ ∃ move, t.play move = some t' :=
  ⟨play_of_step, fun ⟨_, h⟩ => step_of_play h⟩

/-- A tandem that is played stays reachable. -/
theorem reachable_of_plays {moves : List Move} (hr : Reachable t) (t' : Tandem)
    (h : t.plays moves = some t') : Reachable t' := by
  induction moves generalizing t with
  | nil => exact Option.some.inj h ▸ hr
  | cons move moves ih =>
    obtain ⟨t₁, h₁, hrest⟩ := Option.bind_eq_some_iff.1 h
    exact ih (hr.step (step_of_play h₁)) hrest

/-- What has been recorded stays. -/
theorem Step.record_prefix (hs : Step t t') : t.course.record <+: t'.course.record := by
  cases hs with
  | takes now order rest running first => exact List.prefix_append _ _
  | manager course step own held => exact Connection.Course.record_prefix step
  | order | hears | completes | shutDown | asks | refused | answered => exact List.prefix_refl _

/-- **An effect of a move at the end of a run** is one of a step from where the run has led. -/
theorem exists_effect {R : Tandem → Prop} (run : Option Tandem) (hrun : ∀ t₁, run = some t₁ → R t₁)
    (move : Move) (q : Tandem → Connection.Effect → Bool)
    (h : (run.any fun t₁ => (t₁.play move).any fun t₂ =>
      (t₂.course.record.drop t₁.course.record.length).any (q t₁)) = true) :
    ∃ t₁ t₂ es e, R t₁ ∧ Step t₁ t₂ ∧ t₂.course.record = t₁.course.record ++ es ∧ e ∈ es ∧
      q t₁ e = true := by
  obtain ⟨t₁, h₁, h⟩ := (Option.any_eq_true ..).1 h
  obtain ⟨t₂, h₂, h⟩ := (Option.any_eq_true ..).1 h
  obtain ⟨e, he, hq⟩ := List.any_eq_true.1 h
  have hs := step_of_play h₂
  obtain ⟨es, hes⟩ := hs.record_prefix
  rw [← hes, List.drop_left] at he
  exact ⟨t₁, t₂, es, e, hrun t₁ h₁, hs, hes.symm, he, hq⟩

/-- A session without a connection is asked something, and connects and subscribes for it. -/
def connecting : List Move :=
  [.order ⟨0, .ask ⟨"device", none⟩ .registration⟩, .asks 0, .takes 0,
    .manager (.takes 0 (.completion (.dialled 1 (.ok 5))) (some 0)), .answered 0 5, .asks 0,
    .takes 0, .manager (.replies 0 (.ok ())), .answered 0 7, .completes 0]

end Tandem

end DeviceProvisioning
