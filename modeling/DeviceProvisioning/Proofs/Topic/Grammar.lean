import DeviceProvisioning.Proofs.Topic.Response
import Mathlib.Data.List.TakeWhile

/-!
# The grammar of the topics of responses

Reading a topic cuts it at the first slash, drops a plus sign, trims blanks and looks keys up from
behind.  The grammar says the same of how a topic is put together, and mentions no reader:

* `Topic.IsResponse`: a status and a query stand between fixed texts;
* `Number.IsNumeral`: digits, with a plus sign in front or without one;
* `Text.Padded`: a text with blanks around it;
* `Text.Form.IsLast`: the last pair with a key.

For each there is one lemma that says which reader it belongs to.  With these, `parse_grammar` says
what every topic is read as: which topics are accepted and with what result, and which complaint is
made of each of the others.
-/

namespace DeviceProvisioning

/-! ## Numerals -/

namespace Number
variable {bound n : Nat} {cs : List Char}

/-- **A numeral and its value**: digits, with a plus sign in front or without one. -/
def IsNumeral (text : List Char) (n : Nat) : Prop :=
  ∃ digits, (text = digits ∨ text = '+' :: digits) ∧ digits ≠ [] ∧
    (∀ c ∈ digits, c.isDigit = true) ∧ Nat.ofDigitChars 10 digits 0 = n

theorem readDigits_eq_some_iff :
    readDigits cs = some n ↔
      cs ≠ [] ∧ (∀ c ∈ cs, c.isDigit = true) ∧ Nat.ofDigitChars 10 cs 0 = n := by
  unfold readDigits
  split
  · rename_i h
    rw [Option.some.injEq]
    exact ⟨fun hn => ⟨h.1, List.all_eq_true.1 h.2, hn⟩, fun h' => h'.2.2⟩
  · rename_i h
    refine iff_of_false nofun fun ⟨hne, hdigits, _⟩ => h ⟨hne, List.all_eq_true.2 hdigits⟩

/-- Digits have no plus sign in front. -/
theorem dropPlus_of_isDigit (h : ∀ c ∈ cs, c.isDigit = true) : dropPlus cs = cs := by
  unfold dropPlus
  split
  · cases h '+' List.mem_cons_self
  · rfl

/-- **What a field of a protocol is read as**: a numeral within the bound is its value. -/
theorem readBounded_eq_some_iff :
    readBounded bound cs = some n ↔ IsNumeral cs n ∧ n ≤ bound := by
  rw [readBounded, Option.filter_eq_some_iff, readDigits_eq_some_iff, decide_eq_true_iff]
  refine and_congr_left fun _ => ⟨fun h => ⟨dropPlus cs, ?_, h⟩, ?_⟩
  · unfold dropPlus
    split
    · exact .inr rfl
    · exact .inl rfl
  · rintro ⟨digits, rfl | rfl, h⟩
    · rwa [dropPlus_of_isDigit h.2.1]
    · exact h

/-- There are no blanks in a numeral. -/
theorem IsNumeral.not_isBlank (h : IsNumeral cs n) : ∀ c ∈ cs, Text.isBlank c = false := by
  have hdigit (c : Char) (hc : c.isDigit = true) : Text.isBlank c = false := by
    have hrange : 48 ≤ c.toNat ∧ c.toNat ≤ 57 := by
      unfold Char.isDigit at hc
      rwa [Bool.and_eq_true, decide_eq_true_iff, decide_eq_true_iff] at hc
    simp only [Text.isBlank, Bool.or_eq_false_iff, Bool.and_eq_false_iff, decide_eq_false_iff_not,
      beq_eq_false_iff_ne]
    omega
  obtain ⟨digits, rfl | rfl, -, hdigits, -⟩ := h
  · exact fun c hc => hdigit c (hdigits c hc)
  · rintro c (_ | ⟨_, hc⟩)
    · rfl
    · exact hdigit c (hdigits c hc)

end Number

/-! ## Blanks -/

namespace Text
variable {text core : List Char}

/-- **A text with blanks around it**, or with none. -/
def Padded (core text : List Char) : Prop :=
  ∃ before after, text = before ++ core ++ after ∧
    (∀ c ∈ before, isBlank c = true) ∧ ∀ c ∈ after, isBlank c = true

/-- What trimming takes away in front are blanks. -/
theorem exists_trimStart (text : List Char) :
    ∃ before, text = before ++ trimStart text ∧ ∀ c ∈ before, isBlank c = true :=
  ⟨text.takeWhile isBlank, List.takeWhile_append_dropWhile.symm, fun _ => List.mem_takeWhile_imp⟩

/-- **What trimming takes away are blanks.** -/
theorem padded_trim (text : List Char) : Padded (trim text) text := by
  obtain ⟨before, hbefore, hblank⟩ := exists_trimStart text
  obtain ⟨after, hafter, hblank'⟩ := exists_trimStart (trimStart text).reverse
  refine ⟨before, after.reverse, ?_, hblank, fun c hc => hblank' c (List.mem_reverse.1 hc)⟩
  have hrest : trimStart text = trim text ++ after.reverse := by
    rw [trim, ← List.reverse_append, ← hafter, List.reverse_reverse]
  rw [List.append_assoc, ← hrest, ← hbefore]

theorem trimStart_append (h : ∀ c ∈ core, isBlank c = true) (rest : List Char) :
    trimStart (core ++ rest) = trimStart rest :=
  List.dropWhile_append_of_pos h

theorem trimStart_of_not_isBlank (h : ∀ c ∈ core, isBlank c = false) : trimStart core = core := by
  cases core with
  | nil => rfl
  | cons c rest => simp [trimStart, h c List.mem_cons_self]

/-- **Trimming takes all blanks away** from around a text that has none. -/
theorem Padded.trim_eq (h : Padded core text) (hcore : ∀ c ∈ core, isBlank c = false) :
    trim text = core := by
  obtain ⟨before, after, rfl, hbefore, hafter⟩ := h
  have hreverse : ∀ c ∈ after.reverse, isBlank c = true :=
    fun c hc => hafter c (List.mem_reverse.1 hc)
  rw [trim, List.append_assoc, trimStart_append hbefore]
  cases core with
  | nil =>
    rw [List.nil_append, trimStart_eq_nil_iff.2 hafter]
    rfl
  | cons c rest =>
    have hfront : trimStart (c :: rest ++ after) = c :: rest ++ after := by
      simp [trimStart, hcore c List.mem_cons_self]
    have hback : ∀ c' ∈ (c :: rest).reverse, isBlank c' = false :=
      fun c' hc => hcore c' (List.mem_reverse.1 hc)
    rw [hfront, List.reverse_append, trimStart_append hreverse, trimStart_of_not_isBlank hback,
      List.reverse_reverse]

end Text

/-! ## Queries -/

namespace Text.Form
variable {key value : String} {ps : List (String × String)}

/-- **The last pair with a key**, and its value. -/
def IsLast (ps : List (String × String)) (key value : String) : Prop :=
  ∃ before after, ps = before ++ (key, value) :: after ∧ ∀ p ∈ after, p.1 ≠ key

/-- **The value that counts** is that of the last pair. -/
theorem lastValue?_eq_some_iff : lastValue? key ps = some value ↔ IsLast ps key value := by
  constructor
  · intro h
    obtain ⟨later, earlier, heq, hlater⟩ := List.lookup_eq_some_iff.1 h
    refine ⟨earlier.reverse, later.reverse, ?_, fun p hp => ?_⟩
    · rw [← List.reverse_reverse ps, heq]
      simp
    · exact (bne_iff_ne.1 (hlater p (List.mem_reverse.1 hp))).symm
  · rintro ⟨before, after, rfl, hafter⟩
    exact lastValue?_eq hafter

end Text.Form

/-! ## Topics -/

namespace Topic

open Text Number

/-- **A topic of a response**, with its status and its query. -/
structure IsResponse (topic status query : String) : Prop where
  spelled : topic = "$dps/registrations/res/" ++ status ++ "/?" ++ query
  nonempty : status ≠ ""
  slashless : '/' ∉ status.toList
  oneLine : '\n' ∉ query.toList

/-- **A delay in seconds**: a numeral of sixty-four bits, with blanks around it or without. -/
def IsDelay (text : String) (n : Nat) : Prop :=
  ∃ core, Padded core text.toList ∧ IsNumeral core n ∧ n < UInt64.size

/-- **Why a topic is rejected.** -/
inductive Rejected (topic : String) : ResponseError → Prop where
  | shape (h : ∀ status query, ¬ IsResponse topic status query) :
    Rejected topic (.notAResponse topic)
  | status {status query : String} (h : IsResponse topic status query)
      (hs : ∀ n, IsNumeral status.toList n → 65535 < n) :
    Rejected topic (.invalidStatus status)
  | requestId {status query : String} {n : Nat} (h : IsResponse topic status query)
      (hs : IsNumeral status.toList n) (hn : n ≤ 65535)
      (hid : ∀ id, Form.IsLast (Form.pairs query.toList) "$rid" id → id = "") :
    Rejected topic (.missingRequestId topic)

namespace Response
variable {topic status query : String}

/-- The value of a parameter. -/
def value? (r : Response) (key : String) : Option String :=
  Form.lastValue? key r.parameters

/-- The shape of a topic is that of a response. -/
theorem shape?_toList_iff :
    shape? topic.toList = some (status.toList, query.toList) ↔ IsResponse topic status query := by
  have hspelled : ("$dps/registrations/res/" ++ status ++ "/?" ++ query).toList
      = stem ++ (status.toList ++ '/' :: '?' :: query.toList) := by
    simp only [String.toList_append, List.append_assoc]
    rfl
  rw [shape?_eq_some_iff, ← hspelled, String.toList_inj]
  constructor
  · rintro ⟨spelled, hne, slashless, oneLine⟩
    exact ⟨spelled, fun h => hne (h ▸ rfl), slashless, oneLine⟩
  · rintro ⟨spelled, hne, slashless, oneLine⟩
    exact ⟨spelled, fun h => hne (String.toList_eq_nil_iff.1 h), slashless, oneLine⟩

/-- A topic has one shape, or none. -/
theorem shape?_cases (topic : String) :
    (shape? topic.toList = none ∧ ∀ status query, ¬ IsResponse topic status query) ∨
      ∃ status query : String, shape? topic.toList = some (status.toList, query.toList) ∧
        IsResponse topic status query := by
  cases h : shape? topic.toList with
  | none =>
    refine .inl ⟨rfl, fun status query hr => ?_⟩
    rw [shape?_toList_iff.2 hr] at h
    cases h
  | some parts =>
    obtain ⟨status, query⟩ := parts
    have h' : shape? topic.toList
        = some ((String.ofList status).toList, (String.ofList query).toList) := by
      rw [h, String.toList_ofList, String.toList_ofList]
    exact .inr ⟨_, _, by rw [String.toList_ofList, String.toList_ofList], shape?_toList_iff.1 h'⟩

/-- A topic has one status and one query. -/
theorem isResponse_unique {status' query' : String} (h : IsResponse topic status query)
    (h' : IsResponse topic status' query') : status' = status ∧ query' = query := by
  have heq := (shape?_toList_iff.2 h').symm.trans (shape?_toList_iff.2 h)
  obtain ⟨hstatus, hquery⟩ := Prod.mk.inj (Option.some.inj heq)
  exact ⟨String.toList_inj.1 hstatus, String.toList_inj.1 hquery⟩

/-- **Which delays are taken.** -/
theorem delay?_eq_some_iff {text : String} {n : Nat} : delay? text = some n ↔ IsDelay text n := by
  have hbound : n ≤ UInt64.size - 1 ↔ n < UInt64.size := Nat.le_sub_one_iff_lt (by decide)
  rw [delay?, readBounded_eq_some_iff, hbound]
  constructor
  · rintro ⟨hnumeral, hn⟩
    exact ⟨_, padded_trim _, hnumeral, hn⟩
  · rintro ⟨core, hpadded, hnumeral, hn⟩
    rw [hpadded.trim_eq hnumeral.not_isBlank]
    exact ⟨hnumeral, hn⟩

/-! ## What topics are read as -/

/-- What is read when the query names a request. -/
def ofQuery (status : Nat) (id query : String) : Response where
  status := status
  requestId := id
  retryAfter := (Form.lastValue? "retry-after" (Form.pairs query.toList)).bind delay?
  parameters := Form.pairs query.toList

/-- A topic that is accepted. -/
theorem parse_eq_ok {n : Nat} {id : String} (h : IsResponse topic status query)
    (hs : IsNumeral status.toList n) (hn : n ≤ 65535)
    (hid : Form.IsLast (Form.pairs query.toList) "$rid" id) (hne : id ≠ "") :
    parse topic = .ok (ofQuery n id query) := by
  have hlast : Form.lastValue? requestIdKey (Form.pairs query.toList) = some id :=
    Form.lastValue?_eq_some_iff.2 hid
  unfold parse
  rw [shape?_toList_iff.2 h]
  simp only [readBounded_eq_some_iff.2 ⟨hs, hn⟩, hlast]
  rfl

/-- **A topic that is rejected**, and the complaint. -/
theorem parse_eq_error {e : ResponseError} (h : Rejected topic e) : parse topic = .error e := by
  cases h with
  | shape h =>
    obtain ⟨hnone, -⟩ | ⟨status, query, -, hr⟩ := shape?_cases topic
    · unfold parse
      rw [hnone]
    · exact absurd hr (h status query)
  | @status status query h hs =>
    have hnone : readBounded 65535 status.toList = none := by
      refine Option.eq_none_iff_forall_not_mem.2 fun n hn => ?_
      obtain ⟨hnumeral, hle⟩ := readBounded_eq_some_iff.1 hn
      exact absurd (hs n hnumeral) (Nat.not_lt.2 hle)
    unfold parse
    rw [shape?_toList_iff.2 h]
    simp only [hnone, String.ofList_toList]
  | @requestId status query n h hs hn hid =>
    unfold parse
    rw [shape?_toList_iff.2 h]
    simp only [readBounded_eq_some_iff.2 ⟨hs, hn⟩]
    split
    · rfl
    · rfl
    · rename_i id hne hlast
      exact absurd (hid id (Form.lastValue?_eq_some_iff.1 hlast)) hne

/-- **Every topic is rejected or accepted.** -/
theorem rejected_or_accepted (topic : String) :
    (∃ e, Rejected topic e) ∨
      ∃ status query n id, IsResponse topic status query ∧ IsNumeral status.toList n ∧
        n ≤ 65535 ∧ Form.IsLast (Form.pairs query.toList) "$rid" id ∧ id ≠ "" := by
  obtain ⟨-, hnone⟩ | ⟨status, query, -, hr⟩ := shape?_cases topic
  · exact .inl ⟨_, .shape hnone⟩
  by_cases hs : ∃ n, IsNumeral status.toList n ∧ n ≤ 65535
  · obtain ⟨n, hnumeral, hn⟩ := hs
    by_cases hid : ∃ id, Form.IsLast (Form.pairs query.toList) "$rid" id ∧ id ≠ ""
    · obtain ⟨id, hlast, hne⟩ := hid
      exact .inr ⟨status, query, n, id, hr, hnumeral, hn, hlast, hne⟩
    · refine .inl ⟨_, .requestId hr hnumeral hn fun id hlast => ?_⟩
      by_contra hne
      exact hid ⟨id, hlast, hne⟩
  · exact .inl ⟨_, .status hr fun n hnumeral => Nat.lt_of_not_le fun hn => hs ⟨n, hnumeral, hn⟩⟩

/-- **The topics of responses, and what they say.**  A topic is accepted exactly if a status that is
a numeral of sixteen bits and a query stand in it, and the last `$rid` of the query has a value.
The result has the value of the numeral, this id, of every key the value of its last pair, and as
the delay the last `retry-after` if that is one.  Every other topic is rejected, first for its
shape, then for its status and then for its query. -/
theorem parse_grammar (topic : String) :
    ((∃ r, parse topic = .ok r) ↔
      ∃ status query n id, IsResponse topic status query ∧ IsNumeral status.toList n ∧
        n ≤ 65535 ∧ Form.IsLast (Form.pairs query.toList) "$rid" id ∧ id ≠ "") ∧
    (∀ r status query, parse topic = .ok r → IsResponse topic status query →
      IsNumeral status.toList r.status ∧
      Form.IsLast (Form.pairs query.toList) "$rid" r.requestId ∧
      (∀ key value, r.value? key = some value ↔
        Form.IsLast (Form.pairs query.toList) key value) ∧
      ∀ n, r.retryAfter = some n ↔
        ∃ value, Form.IsLast (Form.pairs query.toList) "retry-after" value ∧ IsDelay value n) ∧
    ∀ e, parse topic = .error e ↔ Rejected topic e := by
  refine ⟨⟨fun ⟨r, hr⟩ => ?_, ?_⟩, fun r status query hr h => ?_, fun e => ⟨fun he => ?_, ?_⟩⟩
  · refine (rejected_or_accepted topic).resolve_left fun ⟨e, he⟩ => ?_
    rw [parse_eq_error he] at hr
    cases hr
  · rintro ⟨status, query, n, id, h, hs, hn, hid, hne⟩
    exact ⟨_, parse_eq_ok h hs hn hid hne⟩
  · obtain ⟨e, he⟩ | ⟨status', query', n, id, h', hs, hn, hid, hne⟩ := rejected_or_accepted topic
    · rw [parse_eq_error he] at hr
      cases hr
    · obtain ⟨rfl, rfl⟩ := isResponse_unique h h'
      obtain rfl := Except.ok.inj ((parse_eq_ok h hs hn hid hne).symm.trans hr)
      refine ⟨hs, hid, fun key value => Form.lastValue?_eq_some_iff, fun n => ?_⟩
      simp only [ofQuery, Option.bind_eq_some_iff, Form.lastValue?_eq_some_iff, delay?_eq_some_iff]
  · obtain ⟨e', he'⟩ | ⟨_, _, n, id, h, hs, hn, hid, hne⟩ := rejected_or_accepted topic
    · obtain rfl := Except.error.inj ((parse_eq_error he').symm.trans he)
      exact he'
    · rw [parse_eq_ok h hs hn hid hne] at he
      cases he
  · exact parse_eq_error

end Response
end Topic
end DeviceProvisioning
