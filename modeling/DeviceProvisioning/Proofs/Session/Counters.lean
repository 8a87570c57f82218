import DeviceProvisioning.Proofs.Metrics
import DeviceProvisioning.Proofs.Session.Callers

/-!
# What the counters of a session show

A session counts the operations that it starts, the responses that it dispatches, and the operations
that it cancels, be it one by one or all at once.  From these the number of outstanding operations
is to be read off: `Metrics.outstanding` is what they show.

`Session.step_weigh` says by how much a step changes what they show, and by how much it changes what
is outstanding.  The two differ in one way only.  An operation may end without being counted
(`Session.uncounted`): it could not be published, or another one has been given its id.  So the
counters show what is outstanding and, besides, everything that has ended in this way
(`Session.counters_show_outstanding`).

Nothing is assumed here of the calls that a session has started: the inputs may be any, in any
order, and so may the states in which they find the manager.
-/

namespace DeviceProvisioning.Session

open Connection (Credential State Ticket)
open Registration (Query Request)

/-! ## What effects count -/

/-- What is counted by an effect. -/
def Effect.happening? : Effect → Option Happening
  | count happening => some happening
  | _ => none

/-- **The counters** when they have begun at zero. -/
def metrics (es : List Effect) : Metrics :=
  (es.filterMap Effect.happening?).foldl Metrics.count {}

/-- What effects add to the operations that the counters show. -/
def weigh (es : List Effect) : Int :=
  ((es.filterMap Effect.happening?).map Metrics.weight).sum

section Views
variable (e : Effect) (es es' : List Effect) (s : Session)

theorem outstanding_metrics : (metrics es).outstanding = weigh es := by
  rw [metrics, Metrics.outstanding_foldl_count]
  exact Int.zero_add _

@[simp] theorem weigh_nil : weigh [] = 0 := rfl

@[simp] theorem weigh_cons :
    weigh (e :: es) = (e.happening?.map Metrics.weight).getD 0 + weigh es := by
  cases h : e.happening? <;> simp [weigh, h]

@[simp] theorem weigh_append : weigh (es ++ es') = weigh es + weigh es' := by
  simp [weigh]

@[simp] theorem weigh_entering (next : State) : weigh (s.entering next) = 0 := by
  unfold entering
  split <;> rfl

/-- When all operations end, as many are counted as cancelled. -/
@[simp] theorem weigh_ending (why : Failure) : weigh (s.ending why) = -s.pending.length := by
  unfold ending
  split
  · rename_i h
    rw [List.isEmpty_iff.1 h]
    rfl
  · have hresponses : ∀ pending : List (RequestId × Operation),
        weigh (pending.map fun p => .respond p.2.ticket (.error why)) = 0 := by
      intro pending
      induction pending with
      | nil => rfl
      | cons p pending ih => simpa [Effect.happening?] using ih
    simp [hresponses, Effect.happening?, Metrics.weight]

@[simp] theorem weigh_answering (result : Except Failure Unit) :
    weigh (s.answering result) = 0 := by
  unfold answering
  cases s.waiter <;> rfl

@[simp] theorem weigh_losing (why : Failure) : weigh (s.losing why) = -s.pending.length := by
  simp [losing, Effect.happening?]

@[simp] theorem weigh_refusing (works : List Work) : weigh (works.flatMap refusing) = 0 := by
  induction works with
  | nil => rfl
  | cons work works ih =>
    rw [List.flatMap_cons, weigh_append, ih, Int.add_zero]
    cases work <;> rfl

end Views

/-! ## One step -/

/-- **The id whose operation an input ends without counting it**: that of a message that could not
be published, and that of a new operation. -/
def clears? (s : Session) : Input → Option RequestId
  | .completion (.published id (.error _)) => some id
  | .order ⟨_, .ask _ _⟩ => some s.ids.peek
  | _ => none

/-- How many operations an input ends without counting them. -/
def uncounted (s : Session) (input : Input) : Nat :=
  match s.clears? input with
  | some id => (s.pending.filter (·.1 = id)).length
  | none => 0

/-- **An input that ends no operation uncounted**: nothing is outstanding that could not be
published, and a new operation has an id of its own. -/
def Counts (s : Session) (input : Input) : Prop :=
  ∀ id ∈ s.clears? input, id ∉ s.pending.map Prod.fst

instance (s : Session) (input : Input) : Decidable (s.Counts input) :=
  inferInstanceAs (Decidable (∀ id ∈ s.clears? input, id ∉ s.pending.map Prod.fst))

variable {manager : State} {s s' : Session} {es : List Effect}

theorem uncounted_eq_zero {input : Input} (h : s.Counts input) : s.uncounted input = 0 := by
  unfold uncounted
  split
  · rename_i id hid
    refine List.length_eq_zero_iff.2 (List.filter_eq_nil_iff.2 fun p hp heq => h id hid ?_)
    exact List.mem_map.2 ⟨p, hp, of_decide_eq_true heq⟩
  · rfl

/-- What is ignored ends nothing. -/
theorem Ignores.counts {input : Input} (h : s.Ignores input) : s.Counts input := by
  intro id hid hmem
  unfold clears? at hid
  split at hid
  · obtain rfl := Option.mem_some.1 hid
    obtain ⟨p, hp, rfl⟩ := List.mem_map.1 hmem
    have hnone := List.lookup_eq_none_iff.1 h p hp
    simp at hnone
  · exact h
  · cases hid

/-- The operations with an id, and the others. -/
theorem length_pending (s : Session) (id : RequestId) :
    s.pending.length
      = (s.pending.filter (·.1 = id)).length + (s.pending.filter (·.1 ≠ id)).length := by
  have hsplit := List.length_eq_countP_add_countP (fun p => decide (p.1 = id)) (l := s.pending)
  simpa [List.countP_eq_length_filter] using hsplit

/-- **What an input leads to by itself** weighs as much as it changes what is outstanding, but for
what ends uncounted. -/
theorem opening_weigh {input : Input} {queue : List Work} (h : s.Distinct)
    (ho : Opening manager s input s' es queue) :
    (s.pending.length : Int) + weigh es = s'.pending.length + s.uncounted input := by
  cases ho with
  | asked ticket request query =>
    have hlength := s.length_pending s.ids.peek
    simp only [weigh_cons, weigh_nil, Effect.happening?, Metrics.weight, Option.map_some,
      Option.getD_some, asked, uncounted, clears?, List.length_append, List.length_singleton]
    omega
  | unpublished id why op hp =>
    have hlength := s.length_pending id
    simp only [weigh_cons, weigh_nil, Effect.happening?, Option.map_none, Option.getD_none,
      without, uncounted, clears?]
    omega
  | responded topic payload response id op hr hp =>
    have hlength := Table.length_drop h hp
    simp only [weigh_cons, weigh_nil, Effect.happening?, Metrics.weight, Option.map_some,
      Option.getD_some, Option.map_none, Option.getD_none, without, uncounted, clears?]
    omega
  | cancelled | disconnect | lostConnecting | unconnected | lostReconnecting | unreconnected
  | lost | shutDown =>
    simp [uncounted, clears?, fallen, Effect.happening?]
  | updateCredential | connected | reconnected | disconnected | dropped | noted =>
    simp [uncounted, clears?, changed, Effect.happening?, Metrics.weight]
  | ignored hig =>
    simp [uncounted_eq_zero hig.counts]

/-- **A step** changes what the counters show as it changes what is outstanding, but for what ends
uncounted. -/
theorem step_weigh (manager : State) (input : Input) (h : s.Distinct) :
    (s.pending.length : Int) + weigh (s.step manager input).effects
      = (s.step manager input).session.pending.length + s.uncounted input := by
  refine s.step_induction manager input
    (P := fun s' es _ => (s.pending.length : Int) + weigh es
      = s'.pending.length + s.uncounted input)
    (fun s' es queue ho => opening_weigh h ho) fun s₁ es work queue s₂ es' h₁ hd => ?_
  -- work ends nothing, and nothing is counted for it
  have hnone : weigh es' = 0 := by
    cases hd <;> simp [Effect.happening?]
  rw [weigh_append, hnone, Int.add_zero, doing_pending hd]
  exact h₁

/-! ## Many steps -/

/-- The session when it has taken inputs, one after the other. -/
def after (s : Session) : List (State × Input) → Session
  | [] => s
  | (manager, input) :: rest => (s.step manager input).session.after rest

/-- The effects of inputs that the session takes, one after the other. -/
def effects (s : Session) : List (State × Input) → List Effect
  | [] => []
  | (manager, input) :: rest =>
    (s.step manager input).effects ++ (s.step manager input).session.effects rest

/-- How many operations have ended uncounted. -/
def lapsed (s : Session) : List (State × Input) → Nat
  | [] => 0
  | (manager, input) :: rest => s.uncounted input + (s.step manager input).session.lapsed rest

/-- **Inputs that end no operation uncounted**, at any time. -/
def CountsAll (s : Session) : List (State × Input) → Prop
  | [] => True
  | (manager, input) :: rest => s.Counts input ∧ (s.step manager input).session.CountsAll rest

instance decidableCountsAll (s : Session) : (inputs : List (State × Input)) →
    Decidable (s.CountsAll inputs)
  | [] => inferInstanceAs (Decidable True)
  | (manager, input) :: rest =>
    have := decidableCountsAll (s.step manager input).session rest
    inferInstanceAs (Decidable (s.Counts input ∧ _))

theorem lapsed_eq_zero {inputs : List (State × Input)} (h : s.CountsAll inputs) :
    s.lapsed inputs = 0 := by
  induction inputs generalizing s with
  | nil => rfl
  | cons taken inputs ih => rw [lapsed, uncounted_eq_zero h.1, ih h.2]

theorem effects_weigh (inputs : List (State × Input)) (h : s.Distinct) :
    (s.pending.length : Int) + weigh (s.effects inputs)
      = (s.after inputs).pending.length + s.lapsed inputs := by
  induction inputs generalizing s with
  | nil => simp [effects, after, lapsed]
  | cons taken inputs ih =>
    obtain ⟨manager, input⟩ := taken
    have hfirst := step_weigh manager input h
    have hrest := ih (h.step manager input)
    rw [effects, weigh_append, after, lapsed]
    push_cast
    omega

/-- **Outstanding operations are read off the counters,** which have begun at zero, after any inputs
in any order.  The counters show the operations that are outstanding and, besides, those that have
ended uncounted; if there were none of these, they show what is outstanding. -/
theorem counters_show_outstanding (settings : Settings) (ids : RequestId.Source)
    (inputs : List (State × Input)) :
    let s : Session := { settings, ids }
    (metrics (s.effects inputs)).outstanding
        = (s.after inputs).pending.length + s.lapsed inputs ∧
      (s.CountsAll inputs →
        (metrics (s.effects inputs)).outstanding = (s.after inputs).pending.length) := by
  intro s
  have hshow : (metrics (s.effects inputs)).outstanding
      = (s.after inputs).pending.length + s.lapsed inputs := by
    rw [outstanding_metrics]
    simpa [s] using effects_weigh (s := s) inputs List.nodup_nil
  refine ⟨hshow, fun hcounts => ?_⟩
  rw [hshow, lapsed_eq_zero hcounts]
  exact Int.add_zero _

/-- Two queries of a session that cannot connect are cancelled; of the two after them one is
answered, and the message of one that was cancelled comes back as a failure. -/
theorem counters_show_one_outstanding :
    let s : Session :=
      { settings := { idScope := "scope", credential := .signature "signature" } }
    let ask (ticket : Ticket) : Input := .order ⟨ticket, .ask ⟨"device", none⟩ .registration⟩
    let response : String :=
      "$dps/registrations/res/200/?$rid=00000000-0000-0000-0000-000000000003"
    let inputs : List (State × Input) :=
      [(.disconnected, ask 0), (.connecting, ask 1),
        (.disconnected, .completion (.connected (.error (.notConnected "refused")))),
        (.disconnected, ask 2), (.connected, .completion (.connected (.ok ()))),
        (.connected, ask 3),
        (.connected, .completion (.published (.ofNat 1) (.error (.notConnected "late")))),
        (.connected, .notice (.message response []))]
    s.CountsAll inputs ∧ (s.after inputs).pending.length = 1 ∧
      (metrics (s.effects inputs)).operationsStarted = 4 ∧
      (metrics (s.effects inputs)).outstanding = 1 := by
  intro s ask response inputs
  have hcounts : s.CountsAll inputs := by decide +kernel
  have hpending : (s.after inputs).pending.length = 1 := by decide +kernel
  refine ⟨hcounts, hpending, by decide +kernel, ?_⟩
  rw [(counters_show_outstanding _ _ inputs).2 hcounts]
  exact congrArg Nat.cast hpending

/-- **The counters do not always show what is outstanding.**  A session connects for a query, and
hands its message to a link that fails: nothing is outstanding then, but the counters show one
operation for good. -/
theorem unpublished_operation_shown :
    ∃ (s : Session) (inputs : List (State × Input)),
      s.state = .disconnected ∧ s.pending = [] ∧
      inputs = [(.disconnected, .order ⟨0, .ask ⟨"device", none⟩ .registration⟩),
        (.connected, .completion (.connected (.ok ()))),
        (.connected, .completion (.published (.ofNat 1) (.error (.notConnected "closed"))))] ∧
      (s.after inputs).pending = [] ∧ (metrics (s.effects inputs)).outstanding = 1 :=
  ⟨{ settings := { idScope := "scope", credential := .signature "signature" } }, _, rfl, rfl, rfl,
    List.length_eq_zero_iff.1 (by decide +kernel), by decide +kernel⟩

end DeviceProvisioning.Session
