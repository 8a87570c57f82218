import DeviceProvisioning.Link.Network
import DeviceProvisioning.Proofs.Connection.Closing
import DeviceProvisioning.Proofs.Connection.Progress
import DeviceProvisioning.Proofs.Connection.Validity

/-!
# Whether an attempt comes back

The task of an attempt sets up a client, opens a link over the network, and posts how this has
ended.  The client cannot be given every setting, however, and where it cannot the task comes to its
end without having posted anything.  A manager that waits for it then waits for good.

The check of an order to connect looks at the address and at the id of the client, and both are
what setting up the client asks of them.  The keep-alive is not looked at.  So among parameters that
pass the check it is the keep-alive alone that decides: with one of no time at all, or of a second
at least (`Parameters.Keepable`), every network brings every attempt back
(`Course.attempts_come_back`).  With one of less than a second no network does, and whatever else
happens, the manager stays in the middle of its change until it is shut down
(`Course.Follows.held`).
-/

namespace DeviceProvisioning.Connection

open Time (Millis)

/-! ## Setting up a client -/

namespace Parameters
variable {p : Parameters} {orders : List Order}

/-- **A keep-alive that a client can be given**: none, or of a second at least. -/
def Keepable (p : Parameters) : Prop :=
  p.keepAlive = 0 ∨ 1000 ≤ p.keepAlive

instance : DecidablePred Keepable :=
  fun p => inferInstanceAs (Decidable (p.keepAlive = 0 ∨ 1000 ≤ p.keepAlive))

/-- A check that finds nothing missing has found an address, and a client id. -/
theorem of_checkUncredentialed (h : p.checkUncredentialed = .ok ()) :
    (∃ address, Address.ofUri p.uri = .ok address) ∧ p.clientId.isEmpty = false := by
  have hid (hid : Text.allBlank p.clientId = false) : p.clientId.isEmpty = false := by
    cases hempty : p.clientId.isEmpty with
    | false => rfl
    | true =>
      rw [String.isEmpty_iff.1 hempty] at hid
      cases hid
  unfold checkUncredentialed at h
  cases huri : Text.allBlank p.uri <;> cases haddress : Address.ofUri p.uri <;>
    cases hblank : Text.allBlank p.clientId <;> rw [huri, haddress, hblank] at h
  case false.ok.false address => exact ⟨⟨address, rfl⟩, hid hblank⟩
  all_goals cases h

theorem checkUncredentialed_of_check (h : p.check = .ok ()) : p.checkUncredentialed = .ok () := by
  rw [check_eq] at h
  cases hp : p.checkUncredentialed with
  | ok _ => rfl
  | error why => rw [hp] at h; cases h

/-- The keep-alive of an attempt is that of an order to connect. -/
theorem Derived.keepable (h : p.Derived orders)
    (hk : ∀ ticket q, ⟨ticket, .connect q⟩ ∈ orders → q.Keepable) : p.Keepable := by
  induction h with
  | ordered h => exact hk _ _ h
  | renewed _ _ ih => exact ih

end Parameters

namespace ClientOptions
variable {p : Parameters}

/-- A client is set up, or the connection is refused. -/
def Settles (p : Parameters) : Prop :=
  (∃ options, ofParameters p = .ok options) ∨ ∃ error, ofParameters p = .error (.refused error)

/-- **Setting up a client settles for parameters that pass their check**, if the keep-alive is one
that a client can be given. -/
theorem settles (h : p.checkUncredentialed = .ok ()) (hk : p.Keepable) : Settles p := by
  obtain ⟨⟨address, haddress⟩, hid⟩ := Parameters.of_checkUncredentialed h
  have hrange : inRange p = true := by
    simpa [inRange, hid, Parameters.Keepable] using hk
  cases hlogin : login p.credential with
  | error why =>
    refine .inr ⟨why, ?_⟩
    unfold ofParameters
    rw [haddress, hrange, hlogin]
    rfl
  | ok entry =>
    have heq : ofParameters p
        = ((Transport.choose address.tls p.caCertificate entry.2).mapError .refused).map fun
          transport =>
            { clientId := p.clientId, host := address.host, port := address.port
              keepAlive := p.keepAlive, cleanSession := p.cleanSession
              username := p.username, password := entry.1, transport } := by
      unfold ofParameters
      rw [haddress, hrange, hlogin]
      rfl
    cases htransport : Transport.choose address.tls p.caCertificate entry.2 with
    | error why => exact .inr ⟨why, by rw [heq, htransport]; rfl⟩
    | ok transport => exact .inl ⟨_, by rw [heq, htransport]; rfl⟩

/-- With any other keep-alive there is no result. -/
theorem outOfRange (h : p.checkUncredentialed = .ok ()) (hk : ¬ p.Keepable) :
    ofParameters p = .error .outOfRange := by
  obtain ⟨⟨address, haddress⟩, -⟩ := Parameters.of_checkUncredentialed h
  have hrange : inRange p = false := by
    unfold Parameters.Keepable at hk
    simp [inRange, hk]
  unfold ofParameters
  rw [haddress, hrange]
  rfl

end ClientOptions

/-! ## The task of an attempt -/

/-- **What the task of an attempt posts** over a network, where it opens this link if the broker
lets it: how the attempt has ended, or nothing where no client could be set up. -/
def posted? (network : Link.Network) (link : LinkId) (generation : Nat) (p : Parameters) :
    Option Completion :=
  match Link.connect network p with
  | .ok () => some (.dialled generation (.ok link))
  | .error (.refused error) => some (.dialled generation (.error error))
  | .error .outOfRange => none

section Posting
variable {network : Link.Network} {link : LinkId} {generation : Nat} {p : Parameters}

/-- The task posts how the attempt has ended, and a link that it has opened is its own. -/
theorem of_posted {completion : Completion}
    (h : posted? network link generation p = some completion) :
    ∃ result, completion = .dialled generation result ∧
      ∀ link', result = .ok link' → link' = link := by
  unfold posted? at h
  split at h
  · obtain rfl := Option.some.inj h
    exact ⟨_, rfl, fun link' heq => (Except.ok.inj heq).symm⟩
  · obtain rfl := Option.some.inj h
    exact ⟨_, rfl, nofun⟩
  · cases h

/-- **The task posts what the attempt has come to**, when the client can be given its settings. -/
theorem posted?_isSome (h : p.checkUncredentialed = .ok ()) (hk : p.Keepable)
    (network : Link.Network) (link : LinkId) (generation : Nat) :
    ∃ completion, posted? network link generation p = some completion := by
  unfold posted?
  obtain ⟨options, hoptions⟩ | ⟨error, herror⟩ := ClientOptions.settles h hk
  · have heq : Link.connect network p
        = (Link.accepted? (network options.host options.port)).mapError .refused := by
      unfold Link.connect
      rw [hoptions]
      rfl
    rw [heq]
    cases Link.accepted? (network options.host options.port) with
    | ok _ => exact ⟨_, rfl⟩
    | error why => exact ⟨_, rfl⟩
  · unfold Link.connect
    rw [herror]
    exact ⟨_, rfl⟩

/-- **The task posts nothing** with any other keep-alive, whatever the network. -/
theorem posted?_eq_none (h : p.checkUncredentialed = .ok ()) (hk : ¬ p.Keepable)
    (network : Link.Network) (link : LinkId) (generation : Nat) :
    posted? network link generation p = none := by
  unfold posted? Link.connect
  rw [ClientOptions.outOfRange h hk]
  rfl

end Posting

/-! ## A manager whose attempt does not come back -/

namespace Manager
variable {m : Manager} {tasks : List Effect}

/-- **Nothing but the end of its attempt brings a manager out of connecting.** -/
theorem step_connecting (now : Millis) {input : Input} (hs : m.state = .connecting)
    (hi : input.isShutDown = false)
    (hno : ∀ result, input ≠ .completion (.dialled m.generation result)) :
    (m.step now input).manager.state = .connecting := by
  refine m.step_induction now input (P := fun m' _ _ => m'.state = .connecting)
    (fun m' es queue ho => ?_) fun m₁ es o queue m₂ es' h₁ ht => ?_
  · have hrot : ¬ m.Rotating := fun hrot => by simp [hrot.1] at hs
    cases ho with
    | order | abandoned | lapsed | acknowledged | undelivered | message | ignored => exact hs
    | established link => exact absurd rfl (hno _)
    | refused error => exact absurd rfl (hno _)
    | tornDown _ h | closed h | failed _ h => simp [h] at hs
    | rotated p hr | stranded hr => cases hr <;> exact absurd ‹_› hrot
    | shutDown => cases hi
  · cases ht with
    | deferred => exact h₁
    | connecting _ h | closedAlready h | stored _ h | refused h | unlinked h | openAlready _ _ h
    | disconnecting _ h | publishing _ _ _ _ h | subscribing _ _ _ h | unsubscribing _ _ h
    | rotating _ _ h => simp [h₁] at h

/-- A manager that connects has its latest attempt outstanding. -/
theorem Tended.of_connecting (h : m.Tended tasks) (hs : m.state = .connecting) :
    ∃ p before after, tasks = before ++ .dial m.generation p :: after := by
  obtain ⟨p, haw⟩ := h.standing.dial_of_connecting hs
  obtain ⟨hmem, -⟩ := mem_concerning.1 (haw ▸ List.mem_singleton_self _)
  obtain ⟨before, after, hsplit⟩ := List.append_of_mem hmem
  exact ⟨p, before, after, hsplit⟩

/-- There is no other attempt beside the one that is outstanding. -/
theorem Tended.dial_unique (h : m.Tended tasks) {generation generation' : Nat} {p p' : Parameters}
    (hd : .dial generation p ∈ tasks) (hd' : .dial generation' p' ∈ tasks) :
    generation' = generation ∧ p' = p := by
  have hst := h.standing
  have hmem' : .dial generation' p' ∈ concerning m.generation tasks := mem_concerning.2 ⟨hd', rfl⟩
  obtain ⟨before, after, haw⟩ := List.append_of_mem (mem_concerning.2 ⟨hd, rfl⟩)
  rw [haw] at hst hmem'
  obtain ⟨rfl, rfl⟩ := hst.alone
  simpa using hmem'

end Manager

/-! ## Courses over a network -/

namespace Course
variable {c c' : Course} {network : Link.Network} {generation : Nat} {p : Parameters}

/-- **How a course goes on over a network**: every attempt that comes back does so with what its
task has posted. -/
inductive Follows (network : Link.Network) (c : Course) : Course → Prop where
  | refl : Follows network c c
  | step {c' c'' : Course} (h : Follows network c c') (hs : Step c' c'')
      (posted : ∀ generation p result, .dial generation p ∈ c'.outstanding →
        c''.inputs = c'.inputs ++ [.completion (.dialled generation result)] →
          ∃ link, posted? network link generation p = some (.dialled generation result)) :
    Follows network c c''

theorem Follows.reachable (h : Follows network c c') (hr : Reachable c) : Reachable c' := by
  induction h with
  | refl => exact hr
  | step h hs posted ih => exact ih.step hs

/-- **A manager waits for good** for an attempt whose task posts nothing. -/
theorem Follows.held (h : Follows network c c') (hr : Reachable c)
    (hs : c.manager.state = .connecting) (hd : .dial generation p ∈ c.outstanding)
    (hnone : ∀ link, posted? network link generation p = none) :
    c'.stopped = true ∨ c'.manager.state = .connecting ∧ .dial generation p ∈ c'.outstanding := by
  induction h with
  | refl => exact .inr ⟨hs, hd⟩
  | @step c' c'' h hstep posted ih =>
    have hr' := h.reachable hr
    cases hstep with
    | takes now input e before after running ends admits split =>
      obtain hstop | ⟨hs', hd'⟩ := ih
      · rw [hstop] at running
        cases running
      · have ht := tended hr' running
        cases hi : input.isShutDown with
        | true => exact .inl hi
        | false =>
          -- what comes back is not this attempt, and there is no other
          have hother (result : Except LinkError LinkId) (g : Nat) :
              input ≠ .completion (.dialled g result) := by
            rintro rfl
            obtain ⟨q, rfl⟩ := ends.of_dialled
            have hq : .dial g q ∈ c'.outstanding := by simp [split]
            obtain ⟨rfl, rfl⟩ := ht.dial_unique hd' hq
            obtain ⟨link, hlink⟩ := posted _ _ result hd' rfl
            rw [hnone] at hlink
            cases hlink
          refine .inr ⟨c'.manager.step_connecting now hs' hi fun result => hother result _, ?_⟩
          refine List.mem_append_left _ ?_
          rw [split] at hd'
          cases ends with
          | dialled g q result => exact absurd rfl (hother result g)
          | _ => simpa using hd'
    | subscribed link filter qos ticket result before after split
    | unsubscribed link filter ticket result before after split =>
      refine ih.imp_right fun ⟨hs', hd'⟩ => ⟨hs', ?_⟩
      simpa [split] using hd'
    | late e before after stopped => exact .inl stopped

/-- **What a task has posted, the manager takes**, and with it the attempt comes to its end. -/
theorem follows_posted {before after : List Effect} {link : LinkId} {completion : Completion}
    (h : Reachable c) (running : c.stopped = false)
    (split : c.outstanding = before ++ .dial c.manager.generation p :: after)
    (hlink : link ∉ c.links.map Prod.snd)
    (hposted : posted? network link c.manager.generation p = some completion) (now : Millis) :
    Follows network c (c.follow now (.completion completion) (before ++ after)) ∧
      c.manager.Concludes (c.manager.step now (.completion completion)).effects := by
  have ht := tended h running
  obtain ⟨result, rfl, hresult⟩ := of_posted hposted
  have ends : (Input.completion (.dialled c.manager.generation result)).Ends
      (some (.dial c.manager.generation p)) := .dialled ..
  have admits : c.Admits (.completion (.dialled c.manager.generation result)) := by
    cases result with
    | error why => exact trivial
    | ok link' =>
      obtain rfl := hresult link' rfl
      exact hlink
  constructor
  · refine .step .refl (.takes now _ _ before after running ends admits (by simpa using split))
      fun generation q result' hq heq => ?_
    have hp : .dial c.manager.generation p ∈ c.outstanding := by simp [split]
    obtain ⟨rfl, rfl⟩ := ht.dial_unique hp hq
    obtain rfl : result = result' := by simpa [follow] using heq
    exact ⟨link, hposted⟩
  · obtain hends | ⟨hrot, -⟩ := (split ▸ ht).advances now rfl ends
    · exact hends
    · have hst := ((split ▸ ht).only rfl).1
      obtain ⟨_, _, _, -, -, haw⟩ := hst.of_rotating hrot
      cases haw

/-- **Which attempts come back.**  For parameters that pass their check a client is set up, or the
connection is refused, if the keep-alive is none or a second at least; otherwise there is no result.
So in every course whose orders have passed their checks, an attempt comes back over every network
or over none, as its keep-alive decides, and the keep-alive is that of an order to connect.  A
manager that connects has its attempt outstanding.  In the first case the task posts how it has
ended, and this ends the change and answers its caller; in the second the manager connects until it
is shut down. -/
theorem attempts_come_back (h : Reachable c) (accepted : Accepted c.orders) :
    (∀ p : Parameters, p.check = .ok () →
      (p.Keepable → ClientOptions.Settles p) ∧
      (¬ p.Keepable → ClientOptions.ofParameters p = .error .outOfRange)) ∧
    (∀ generation p, .dial generation p ∈ c.record → ∀ network link,
      (∃ completion, posted? network link generation p = some completion) ↔ p.Keepable) ∧
    ((∀ ticket p, ⟨ticket, .connect p⟩ ∈ c.orders → p.Keepable) →
      ∀ generation p, .dial generation p ∈ c.record → p.Keepable) ∧
    (c.stopped = false → c.manager.state = .connecting →
      ∃ p before after, c.outstanding = before ++ .dial c.manager.generation p :: after ∧
        (p.Keepable → ∀ network link, link ∉ c.links.map Prod.snd →
          ∃ completion, posted? network link c.manager.generation p = some completion ∧
            ∀ now, Follows network c (c.follow now (.completion completion) (before ++ after)) ∧
              c.manager.Concludes (c.manager.step now (.completion completion)).effects) ∧
        (¬ p.Keepable → ∀ network c', Follows network c c' →
          c'.stopped = true ∨ c'.manager.state = .connecting)) := by
  have checked {generation : Nat} {p : Parameters} (hdial : .dial generation p ∈ c.record) :
      p.checkUncredentialed = .ok () :=
    ((derives h).attempts generation p hdial).checkUncredentialed_eq accepted
  refine ⟨fun p hp => ?_, fun generation p hdial network link => ?_,
    fun hk generation p hdial => ?_, fun running hs => ?_⟩
  · have hchecked := Parameters.checkUncredentialed_of_check hp
    exact ⟨ClientOptions.settles hchecked, ClientOptions.outOfRange hchecked⟩
  · refine ⟨fun ⟨completion, hposted⟩ => ?_, fun hk => posted?_isSome (checked hdial) hk ..⟩
    by_cases hk : p.Keepable
    · exact hk
    · rw [posted?_eq_none (checked hdial) hk] at hposted
      cases hposted
  · exact ((derives h).attempts generation p hdial).keepable hk
  · obtain ⟨p, before, after, split⟩ := (tended h running).of_connecting hs
    have hdial : .dial c.manager.generation p ∈ c.outstanding := by simp [split]
    have hchecked := checked (outstanding_recorded h hdial)
    refine ⟨p, before, after, split, fun hk network link hlink => ?_, fun hk network c' hc => ?_⟩
    · obtain ⟨completion, hposted⟩ := posted?_isSome hchecked hk network link c.manager.generation
      exact ⟨completion, hposted, follows_posted h running split hlink hposted⟩
    · exact (hc.held h hs hdial fun link => posted?_eq_none hchecked hk ..).imp_right And.left

/-- The parameters of a device that shows once in so many milliseconds that it is alive. -/
def keptAlive (keepAlive : Millis) : Parameters :=
  { deviceParameters (.signature "token") with keepAlive }

/-- A manager that connects with a keep-alive of one second, over a network that refuses it. -/
theorem attempt_refused_comes_back :
    ∃ (c : Course) (network : Link.Network) (completion : Completion),
      Reachable c ∧ Accepted c.orders ∧ c.manager.state = .connecting ∧
      .dial 1 (keptAlive 1000) ∈ c.record ∧
      posted? network 7 1 (keptAlive 1000) = some completion ∧
      Follows network c (c.follow 0 (.completion completion) []) ∧
      c.manager.Concludes (c.manager.step 0 (.completion completion)).effects := by
  have connect := (Reachable.start 30000 .sequential).step
    (.takes 0 (.order ⟨0, .connect (keptAlive 1000)⟩) none [] [] rfl (.order _) (by decide) rfl)
  have accepted : Accepted [⟨0, .connect (keptAlive 1000)⟩] := by
    intro o ho
    obtain rfl := List.mem_singleton.1 ho
    rfl
  obtain ⟨-, -, -, hconnecting⟩ := attempts_come_back connect accepted
  obtain ⟨p, before, after, split, hback, -⟩ := hconnecting rfl rfl
  have split : [.dial 1 (keptAlive 1000)] = before ++ Effect.dial 1 p :: after := split
  obtain ⟨rfl, rfl, rfl⟩ : before = [] ∧ p = keptAlive 1000 ∧ after = [] := by
    simpa [List.cons_eq_append_iff] using split
  let refusing : Link.Network := fun _ _ => .ok .notAuthorized
  obtain ⟨completion, hposted, htakes⟩ := hback (by decide) refusing 7 (by decide)
  exact ⟨_, refusing, completion, connect, accepted, rfl, List.mem_of_getElem? (i := 2) rfl,
    hposted, htakes 0⟩

/-- **An attempt that never comes back.**  The parameters pass their check, with a keep-alive of
half a second. -/
theorem attempt_never_comes_back :
    ∃ (p : Parameters) (c : Course), p.check = .ok () ∧ ¬ ClientOptions.Settles p ∧
      Reachable c ∧ c.orders = [⟨0, .connect p⟩] ∧ c.manager.state = .connecting ∧
      ∀ network c', Follows network c c' → c'.stopped = true ∨ c'.manager.state = .connecting := by
  have hcheck : (keptAlive 500).check = .ok () := rfl
  have hchecked := Parameters.checkUncredentialed_of_check hcheck
  have hk : ¬ (keptAlive 500).Keepable := by decide
  have connect := (Reachable.start 30000 .sequential).step
    (.takes 0 (.order ⟨0, .connect (keptAlive 500)⟩) none [] [] rfl (.order _) (by decide) rfl)
  refine ⟨keptAlive 500, _, hcheck, ?_, connect, rfl, rfl, fun network c' hc => ?_⟩
  · rw [ClientOptions.Settles, ClientOptions.outOfRange hchecked hk]
    simp
  · have hd : .dial 1 (keptAlive 500) ∈ [Effect.dial 1 (keptAlive 500)] := List.mem_singleton_self _
    exact (hc.held connect rfl hd fun link => posted?_eq_none hchecked hk ..).imp_right And.left

end Course

end DeviceProvisioning.Connection
