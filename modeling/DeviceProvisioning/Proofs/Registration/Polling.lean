import DeviceProvisioning.Proofs.Registration.Enquiry
import Mathlib.Data.List.Induction

/-!
# What a run asks for, and what it makes of a busy service

A run keeps nothing but the latest response, and puts its next query by that.

When the service was too busy, the response is one that stands in for its reply, and it must put the
run back where it was: a status query names its operation again, and a registration names none.  So
a busy reply moves no run (`Standing.after_busy`), and with all of them gone the same queries get
the same replies and the run comes to the same end (`Enquiry.throttling_is_invisible`).

The operation that a run asks about is therefore that of the latest reply which was not busy
(`Enquiry.query_of_latest`).  This is the operation that was named last only as long as no reply
leaves it out: a pending reply without an operation makes a run register anew, although it has been
told of one before (`Enquiry.registers_again`).
-/

namespace DeviceProvisioning.Registration

open Connection (Ticket)

variable {request : Request} {ticket : Ticket} {session : Session} {interval : Time.Millis}

/-! ## Busy replies -/

namespace Standing

/-- The query that is out could be put. -/
def Proper (request : Request) : Standing → Prop
  | waiting query => (Session.Command.ask request query).check = .ok ()
  | decided _ => True

theorem put_of_check {query : Query} (h : (Session.Command.ask request query).check = .ok ()) :
    put request query = waiting query := by
  rw [put, h]

theorem proper_put (request : Request) (query : Query) : (put request query).Proper request := by
  unfold put
  split
  · trivial
  · assumption

theorem proper_after (request : Request) (interval : Time.Millis) (query : Query) (r : Reply) :
    (after request interval query r).Proper request := by
  unfold after
  split
  · trivial
  · split
    · exact proper_put _ _
    · trivial

/-- What stands in for a busy reply asks for the query once more. -/
theorem nextQuery_busyOutcome (query : Query) : query.busyOutcome.nextQuery = query := by
  cases query <;> rfl

theorem isPending_busyOutcome (query : Query) : query.busyOutcome.status.isPending = true := by
  cases query <;> rfl

/-- What a busy reply says, whatever its body. -/
theorem answer_busy {r : Reply} (h : r.Busy) (interval : Time.Millis) (query : Query) :
    r.answer interval query
      = .ok ⟨query.busyOutcome, pollingInterval r.retryAfter interval⟩ := by
  have hlow : ¬ r.status < 300 := by unfold Reply.Busy at h; omega
  have hmid : ¬ r.status < 429 := Nat.not_lt.2 h
  simp [Reply.answer, interpret, hlow, hmid]

/-- **A busy reply moves no run.** -/
theorem after_busy {query : Query} {r : Reply} (h : (waiting query).Proper request) (hr : r.Busy) :
    after request interval query r = waiting query := by
  rw [after, answer_busy hr]
  simp only [isPending_busyOutcome, if_true, nextQuery_busyOutcome]
  exact put_of_check h

/-- Without its busy replies a script makes the same of a standing. -/
theorem converse_calm {standing : Standing} (h : standing.Proper request) (script : List Reply) :
    standing.converse request interval (script.filter (¬ ·.Busy))
      = ((standing.converse request interval script).1.filter (¬ ·.2.Busy),
        (standing.converse request interval script).2) := by
  induction script generalizing standing with
  | nil => cases standing <;> rfl
  | cons r script ih =>
    cases standing with
    | decided verdict => simp [converse]
    | waiting query =>
      by_cases hr : r.Busy
      · rw [List.filter_cons_of_neg (by simpa using hr), ih h, converse, after_busy h hr,
          List.filter_cons_of_neg (by simpa using hr)]
      · rw [List.filter_cons_of_pos (by simpa using hr), converse, converse,
          ih (proper_after request interval query r), List.filter_cons_of_pos (by simpa using hr)]

end Standing

/-- **Throttling is invisible.**  Whatever a run asks for, whatever the session and whatever the
script of replies, the replies of a busy service can be left out of the script: every other reply
answers the same query as before, and the run comes to the same verdict, or waits for the answer to
the same query when the script ends. -/
theorem Enquiry.throttling_is_invisible (request : Request) (ticket : Ticket) (session : Session)
    (h : session.Idle) (script : List Reply) :
    let whole := (start request ticket session).converse script
    let calm := (start request ticket session).converse (script.filter (¬ ·.Busy))
    calm.1 = whole.1.filter (¬ ·.2.Busy) ∧ calm.2.stage = whole.2.stage ∧
      calm.2.query? = whole.2.query? := by
  have hstart := stands_start request ticket h
  obtain ⟨hwhole, hlast⟩ := stands_converse hstart script
  obtain ⟨hcalm, hlast'⟩ := stands_converse hstart (script.filter (¬ ·.Busy))
  rw [Standing.converse_calm (Standing.proper_put request .registration)] at hcalm hlast'
  refine ⟨?_, hlast'.stage_eq.trans hlast.stage_eq.symm,
    hlast'.query?_eq.trans hlast.query?_eq.symm⟩
  rw [hcalm, hwhole]

/-- A reply with an outcome in its body. -/
def Reply.carrying (o : Outcome) : Reply :=
  { status := 200, body := Text.Utf8.encode o.toJson.render }

/-- The reply of a busy service. -/
def Reply.throttled : Reply :=
  { status := 429, body := [] }

/-- A device that is throttled before and after it has been told of its operation. -/
theorem Enquiry.throttled_twice :
    ∃ session : Session, session.Idle ∧
      let replies := [.throttled, .carrying { operationId := some "op-1", status := .assigning },
        .throttled, .carrying { status := .assigned, record := some {} }]
      let whole := (start { registrationId := "device-1" } 0 session).converse replies
      let calm := (start { registrationId := "device-1" } 0 session).converse
        (replies.filter (¬ ·.Busy))
      (calm.1 = whole.1.filter (¬ ·.2.Busy) ∧ calm.2.stage = whole.2.stage ∧
        calm.2.query? = whole.2.query?) ∧
      whole.1.map Prod.fst
        = [.registration, .registration, .operationStatus "op-1", .operationStatus "op-1"] ∧
      calm.1.map Prod.fst = [.registration, .operationStatus "op-1"] := by
  let session : Session := { settings := { idScope := "0ne0001", credential := .signature "token" } }
  have hidle : session.Idle := .inr ⟨rfl, rfl, rfl⟩
  refine ⟨session, hidle, throttling_is_invisible { registrationId := "device-1" } 0 session hidle
    [.throttled, .carrying { operationId := some "op-1", status := .assigning },
      .throttled, .carrying { status := .assigned, record := some {} }], ?_, ?_⟩
  all_goals
    rw [(stands_converse (stands_start _ _ hidle) _).1]
    decide +kernel

/-! ## Operations -/

/-- The query about an operation, or the one that asks for a registration as long as there is
none. -/
def Query.about : Option String → Query
  | some operationId => .operationStatus operationId
  | none => .registration

/-- The operation that a reply names: the body of a successful one may. -/
def Reply.operationId? (r : Reply) : Option String :=
  if r.status < 300 then (Outcome.reader.run (Text.Utf8.decode r.body)).bind (·.operationId)
  else none

/-- **The operation that was named last.** -/
def lastNamed? (replies : List Reply) : Option String :=
  (replies.filterMap Reply.operationId?).getLast?

/-- **The operation of the latest reply** that was not busy, if it names one. -/
def ofLatest? (replies : List Reply) : Option String :=
  (replies.filter (¬ ·.Busy)).getLast?.bind Reply.operationId?

/-- No reply leaves out an operation that was named before; busy ones do not count. -/
def NamesThroughout (replies : List Reply) : Prop :=
  ∀ i (h : i < replies.length), ¬ replies[i].Busy → lastNamed? (replies.take i) ≠ none →
    replies[i].operationId? ≠ none

instance : DecidablePred NamesThroughout :=
  fun replies => inferInstanceAs (Decidable (∀ i (_ : i < replies.length), _))

theorem Outcome.nextQuery_eq (o : Outcome) : o.nextQuery = .about o.operationId := by
  unfold Outcome.nextQuery
  split
  · rename_i h
    rw [h, Query.about]
  · rename_i h
    rw [h, Query.about]

theorem ofLatest?_busy {r : Reply} (h : r.Busy) (before : List Reply) :
    ofLatest? (before ++ [r]) = ofLatest? before := by
  simp [ofLatest?, h]

theorem ofLatest?_concat {r : Reply} (h : ¬ r.Busy) (before : List Reply) :
    ofLatest? (before ++ [r]) = r.operationId? := by
  simp [ofLatest?, h]

/-- A busy reply names no operation. -/
theorem operationId?_busy {r : Reply} (h : r.Busy) : r.operationId? = none := by
  have hlow : ¬ r.status < 300 := by unfold Reply.Busy at h; omega
  rw [Reply.operationId?, if_neg hlow]

theorem lastNamed?_concat (before : List Reply) (r : Reply) :
    lastNamed? (before ++ [r]) = r.operationId?.or (lastNamed? before) := by
  cases h : r.operationId? <;> simp [lastNamed?, List.filterMap_append, h]

/-- As long as no reply leaves it out, the latest one names the operation that was named last. -/
theorem NamesThroughout.ofLatest?_eq {replies : List Reply} (h : NamesThroughout replies) :
    ofLatest? replies = lastNamed? replies := by
  induction replies using List.reverseRecOn with
  | nil => rfl
  | append_singleton before r ih =>
    have hbefore : NamesThroughout before := by
      intro i hi
      have hi' : i < (before ++ [r]).length := by simp; omega
      have hat := h i hi'
      rwa [List.getElem_append_left hi, List.take_append_of_le_length (Nat.le_of_lt hi)] at hat
    have hlast := h before.length (by simp)
    rw [List.getElem_concat_length rfl, List.take_left] at hlast
    rw [lastNamed?_concat]
    by_cases hr : r.Busy
    · rw [ofLatest?_busy hr, operationId?_busy hr, ih hbefore, Option.none_or]
    · rw [ofLatest?_concat hr]
      cases hid : r.operationId? with
      | some id => rw [Option.some_or]
      | none =>
        have hnone : lastNamed? before = none := by
          by_contra hnamed
          exact hlast hr hnamed hid
        rw [hnone, Option.none_or]

/-- What a reply names is what its answer is about, unless the service was busy. -/
theorem operationId?_eq {query : Query} {r : Reply} {response : Response} (hr : ¬ r.Busy)
    (h : r.answer interval query = .ok response) :
    r.operationId? = response.outcome.operationId := by
  have hmid : r.status < 429 := Nat.lt_of_not_le hr
  unfold Reply.answer interpret at h
  simp only [if_pos hmid] at h
  split at h
  · rename_i hlow
    split at h
    · rename_i outcome hread
      cases h
      rw [Reply.operationId?, if_pos hlow, hread, Option.bind_some]
    · cases h
  · cases h

/-- A run goes on by the operation of the latest reply. -/
theorem Standing.after_about {before : List Reply} {query next : Query} {r : Reply}
    (h : query = .about (ofLatest? before))
    (hnext : after request interval query r = waiting next) :
    next = .about (ofLatest? (before ++ [r])) := by
  have hput : ∀ q, put request q = waiting next → next = q := by
    intro q hq
    unfold put at hq
    split at hq
    · cases hq
    · cases hq
      rfl
  by_cases hr : r.Busy
  · rw [after, answer_busy hr] at hnext
    simp only [isPending_busyOutcome, if_true, nextQuery_busyOutcome] at hnext
    rw [ofLatest?_busy hr, hput _ hnext, h]
  · rw [ofLatest?_concat hr]
    unfold after at hnext
    split at hnext
    · cases hnext
    · rename_i response hanswer
      split at hnext
      · rw [hput _ hnext, Outcome.nextQuery_eq, operationId?_eq hr hanswer]
      · cases hnext

namespace Standing

/-- The queries that are put while a script is taken: those that are answered, and the one that is
out at the end. -/
def sent (request : Request) (interval : Time.Millis) (standing : Standing) (script : List Reply) :
    List Query :=
  (standing.converse request interval script).1.map Prod.fst
    ++ (standing.converse request interval script).2.query?.toList

@[simp] theorem sent_decided (verdict : Verdict) (script : List Reply) :
    (decided verdict).sent request interval script = [] := by
  cases script <;> rfl

@[simp] theorem sent_nil (query : Query) : (waiting query).sent request interval [] = [query] := rfl

@[simp] theorem sent_cons (query : Query) (r : Reply) (script : List Reply) :
    (waiting query).sent request interval (r :: script)
      = query :: (after request interval query r).sent request interval script := rfl

/-- Every query that is put after the replies `before` goes by the latest reply. -/
theorem sent_about {before : List Reply} {standing : Standing}
    (h : ∀ query, standing = waiting query → query = .about (ofLatest? before))
    (script : List Reply) (i : Nat) (query : Query)
    (hquery : (standing.sent request interval script)[i]? = some query) :
    query = .about (ofLatest? (before ++ script.take i)) := by
  induction script generalizing before standing i with
  | nil =>
    cases standing with
    | decided verdict => simp at hquery
    | waiting first =>
      cases i with
      | zero =>
        obtain rfl : first = query := by simpa using hquery
        simpa using h first rfl
      | succ i => simp at hquery
  | cons r script ih =>
    cases standing with
    | decided verdict => simp at hquery
    | waiting first =>
      cases i with
      | zero =>
        obtain rfl : first = query := by simpa using hquery
        simpa using h first rfl
      | succ i =>
        have hnext := ih (fun next => after_about (h first rfl)) i (by simpa using hquery)
        rwa [List.append_assoc] at hnext

end Standing

namespace Enquiry

/-- **The queries that a run puts** while it takes a script: those that are answered, and the one
that is out at the end.  The `i`-th of them is put when the first `i` replies have come. -/
def sent (e : Enquiry) (script : List Reply) : List Query :=
  (e.converse script).1.map Prod.fst ++ (e.converse script).2.query?.toList

/-- What a run puts is what its standing puts. -/
theorem sent_start (h : session.Idle) (script : List Reply) :
    (start request ticket session).sent script
      = (Standing.put request .registration).sent request session.settings.interval script := by
  obtain ⟨hexchanges, hlast⟩ := stands_converse (stands_start request ticket h) script
  rw [sent, hexchanges, hlast.query?_eq, Standing.sent]

/-- **A run asks about the operation of the latest reply.**  Whatever is asked for, and whatever the
script, each query is about the operation that the latest reply has named which was not busy, and it
asks for a registration when that reply named none or there is none.  As long as no such reply
leaves out an operation that has been named before, this is the operation that was named last: a
known operation is then never registered again. -/
theorem query_of_latest (request : Request) (ticket : Ticket) (session : Session)
    (h : session.Idle) (script : List Reply) (i : Nat) (query : Query)
    (hquery : ((start request ticket session).sent script)[i]? = some query) :
    query = .about (ofLatest? (script.take i)) ∧
      (NamesThroughout (script.take i) → query = .about (lastNamed? (script.take i))) := by
  have hfirst : ∀ first, Standing.put request .registration = .waiting first →
      first = .about (ofLatest? []) := by
    intro first hput
    unfold Standing.put at hput
    split at hput
    · cases hput
    · cases hput
      rfl
  rw [sent_start h] at hquery
  have habout := Standing.sent_about hfirst script i query hquery
  rw [List.nil_append] at habout
  exact ⟨habout, fun hnames => by rw [habout, hnames.ofLatest?_eq]⟩

/-- A status query about the operation that was named two replies ago. -/
theorem query_after_throttling :
    ∃ session : Session, session.Idle ∧
      let replies := [.throttled, .carrying { operationId := some "op-1", status := .assigning },
        .throttled]
      ((start { registrationId := "device-1" } 0 session).sent replies)[3]?
        = some (.operationStatus "op-1") ∧
      Query.operationStatus "op-1" = .about (ofLatest? replies) ∧
      Query.operationStatus "op-1" = .about (lastNamed? replies) := by
  let session : Session := { settings := { idScope := "0ne0001", credential := .signature "token" } }
  have hidle : session.Idle := .inr ⟨rfl, rfl, rfl⟩
  let replies : List Reply := [.throttled,
    .carrying { operationId := some "op-1", status := .assigning }, .throttled]
  have hsent : ((start { registrationId := "device-1" } 0 session).sent replies)[3]?
      = some (.operationStatus "op-1") := by
    rw [sent_start hidle]
    decide +kernel
  have hnames : NamesThroughout (replies.take 3) := by decide +kernel
  obtain ⟨hlatest, hlast⟩ := query_of_latest { registrationId := "device-1" } 0 session hidle replies
    3 (.operationStatus "op-1") hsent
  exact ⟨session, hidle, hsent, hlatest, hlast hnames⟩

/-- **A known operation can be registered again.**  A pending reply that leaves the operation out
makes the run ask for a registration, although an earlier reply has named the operation. -/
theorem registers_again :
    ¬ ∀ (request : Request) (ticket : Ticket) (session : Session), session.Idle →
      ∀ (script : List Reply) (i : Nat) (query : Query),
        ((start request ticket session).sent script)[i]? = some query →
        query = .about (lastNamed? (script.take i)) := by
  intro hclaim
  let session : Session := { settings := { idScope := "0ne0001", credential := .signature "token" } }
  have hidle : session.Idle := .inr ⟨rfl, rfl, rfl⟩
  let replies : List Reply := [.carrying { operationId := some "op-1", status := .assigning },
    .carrying { status := .assigning }]
  have hsent : ((start { registrationId := "device-1" } 0 session).sent replies)[2]?
      = some .registration := by
    rw [sent_start hidle]
    decide +kernel
  have hnamed : Query.about (lastNamed? (replies.take 2)) = .operationStatus "op-1" := by
    decide +kernel
  have heq := hclaim _ _ session hidle replies 2 _ hsent
  rw [hnamed] at heq
  cases heq

end Enquiry

end DeviceProvisioning.Registration
