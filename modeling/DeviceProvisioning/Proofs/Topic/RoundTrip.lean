import DeviceProvisioning.Proofs.Text.FormEncoding
import DeviceProvisioning.Proofs.Topic.Grammar

/-!
# Building the topic of a response, and reading it

The service builds a topic from a status and from pairs of texts, each of them encoded by itself.
An encoded text holds no mark of a query and no line feed, so that the query falls apart again where
it was put together, and each part is decoded to what it was (`Form.pairs_segments`).  What the
pairs are does not matter: a key or a value may hold any character, and may be empty.

Reading keeps the pairs in their order, but looks a value up by its key.  While no two pairs have
the same key, what counts for a key is the pair that has it, wherever it stands
(`Form.isLast_iff_mem`).  So the topics of the same pairs in another order say the same
(`Response.parse_built`).
-/

namespace DeviceProvisioning

open Text Number

/-! ## Queries -/

namespace Text.Form
variable {ps : List (String × String)}

/-- A key and its value, encoded. -/
def segment (p : String × String) : List Char :=
  (encode p.1).toList ++ '=' :: (encode p.2).toList

/-- What stands in a segment is the mark in its middle, or it is safe. -/
theorem of_mem_segment {p : String × String} {c : Char} (h : c ∈ segment p) :
    c = '=' ∨ IsSafe c := by
  rcases List.mem_append.1 h with hk | hv
  · exact .inr (safe_encode hk)
  · exact (List.mem_cons.1 hv).imp_right safe_encode

theorem not_mem_segment {p : String × String} : '&' ∉ segment p ∧ '\n' ∉ segment p := by
  constructor <;> intro h <;> rcases of_mem_segment h with heq | hsafe
  · cases heq
  · exact hsafe.1 rfl
  · cases heq
  · exact hsafe.2.2 rfl

theorem segment_ne_nil (p : String × String) : segment p ≠ [] := by
  simp [segment]

/-- **A pair is read back from its segment.** -/
theorem pair_segment (p : String × String) : pair (segment p) = p := by
  have hcut : cutAt '=' (segment p) = some ((encode p.1).toList, (encode p.2).toList) :=
    cutAt_eq_some_iff.2 ⟨rfl, fun h => (safe_encode h).2.1 rfl⟩
  rw [pair, hcut]
  exact Prod.ext (decode_encode p.1) (decode_encode p.2)

theorem parameters_segments (ps : List (String × String)) :
    parameters (ps.map segment) = ps := by
  induction ps with
  | nil => rfl
  | cons p ps ih => rw [List.map_cons, parameters_cons (segment_ne_nil p), pair_segment, ih]

/-- **The pairs of a query are read back.** -/
theorem pairs_segments (ps : List (String × String)) :
    pairs (['&'].intercalate (ps.map segment)) = ps := by
  have hmarks : ∀ s ∈ ps.map segment, '&' ∉ s := by
    intro s hs
    obtain ⟨p, -, rfl⟩ := List.mem_map.1 hs
    exact not_mem_segment.1
  rw [pairs_intercalate hmarks, parameters_segments]

/-- **Without a second pair with the key** the pair that has it is the last. -/
theorem isLast_iff_mem (hkeys : (ps.map Prod.fst).Nodup) {key value : String} :
    IsLast ps key value ↔ (key, value) ∈ ps := by
  constructor
  · rintro ⟨before, after, rfl, -⟩
    exact List.mem_append_right _ List.mem_cons_self
  · intro h
    obtain ⟨before, after, rfl⟩ := List.append_of_mem h
    refine ⟨before, after, rfl, fun p hp heq => ?_⟩
    rw [List.map_append, List.map_cons] at hkeys
    have hafter := (List.nodup_cons.1 (List.nodup_append.1 hkeys).2.1).1
    have hmem : p.1 ∈ after.map Prod.fst := List.mem_map_of_mem hp
    exact hafter (heq ▸ hmem)

end Text.Form

/-! ## Topics -/

namespace Topic.Response
variable {status : Nat} {ps ps' : List (String × String)} {id : String}

/-- **The topic of a response**, built from its status and the pairs of its query. -/
def built (status : Nat) (ps : List (String × String)) : String :=
  written status (ps.map Form.segment)

/-- What a topic that has been built is read as. -/
theorem parse_built_eq (hstatus : status ≤ 65535) (hid : Form.IsLast ps "$rid" id) (hne : id ≠ "") :
    parse (built status ps) =
      .ok (ofQuery status id (String.ofList (['&'].intercalate (ps.map Form.segment)))) := by
  have hsegments : ∀ s ∈ ps.map Form.segment, IsSegment s := by
    intro s hs
    obtain ⟨p, -, rfl⟩ := List.mem_map.1 hs
    exact Form.not_mem_segment
  have hshape : IsResponse (built status ps) (String.ofList (decimal status))
      (String.ofList (['&'].intercalate (ps.map Form.segment))) := by
    refine shape?_toList_iff.1 ?_
    rw [String.toList_ofList, String.toList_ofList]
    exact shape?_written hsegments
  obtain ⟨hnumeral, -⟩ := readBounded_eq_some_iff.1 (readBounded_decimal hstatus)
  refine parse_eq_ok hshape ?_ hstatus ?_ hne
  · rwa [String.toList_ofList]
  · rwa [String.toList_ofList, Form.pairs_segments]

/-- **What a topic says that has been built.** -/
structure Says (r : Response) (status : Nat) (ps : List (String × String)) (id : String) :
    Prop where
  status : r.status = status
  requestId : r.requestId = id
  query : ∀ key value, r.value? key = some value ↔ (key, value) ∈ ps
  retryAfter : ∀ n, r.retryAfter = some n ↔ ∃ value, ("retry-after", value) ∈ ps ∧ IsDelay value n

/-- A topic that has been built from pairs with distinct keys is read. -/
theorem exists_says (hstatus : status ≤ 65535) (hkeys : (ps.map Prod.fst).Nodup)
    (hid : ("$rid", id) ∈ ps) (hne : id ≠ "") :
    ∃ r, parse (built status ps) = .ok r ∧ r.Says status ps id := by
  refine ⟨_, parse_built_eq hstatus ((Form.isLast_iff_mem hkeys).2 hid) hne, rfl, rfl, ?_, ?_⟩
  · intro key value
    rw [value?, Form.lastValue?_eq_some_iff, ofQuery, String.toList_ofList, Form.pairs_segments,
      Form.isLast_iff_mem hkeys]
  · intro n
    simp only [ofQuery, String.toList_ofList, Form.pairs_segments, Option.bind_eq_some_iff,
      Form.lastValue?_eq_some_iff, Form.isLast_iff_mem hkeys, delay?_eq_some_iff]

/-- What a topic says does not depend on the order of its pairs. -/
theorem Says.perm {r : Response} (h : r.Says status ps' id) (hperm : ps'.Perm ps) :
    r.Says status ps id where
  status := h.status
  requestId := h.requestId
  query key value := (h.query key value).trans hperm.mem_iff
  retryAfter n := (h.retryAfter n).trans (by simp only [hperm.mem_iff])

/-- **Two results are the same**, whatever the order in which their parameters stand. -/
structure Agrees (r r' : Response) : Prop where
  status : r.status = r'.status
  requestId : r.requestId = r'.requestId
  retryAfter : r.retryAfter = r'.retryAfter
  query : ∀ key, r.value? key = r'.value? key

/-- Results that say the same agree. -/
theorem Says.agrees {r r' : Response} (h : r.Says status ps id) (h' : r'.Says status ps id) :
    r.Agrees r' where
  status := h.status.trans h'.status.symm
  requestId := h.requestId.trans h'.requestId.symm
  retryAfter := Option.ext fun n => (h.retryAfter n).trans (h'.retryAfter n).symm
  query key := Option.ext fun value => (h.query key value).trans (h'.query key value).symm

/-- **Reading undoes building, in any order.**  For every status and all pairs of texts with
distinct keys, among them an id, the topic that is built is read as this status, this id, these
pairs and the delay that they ask for; and with the pairs in any other order the result is the
same. -/
theorem parse_built (hstatus : status ≤ 65535) (hkeys : (ps.map Prod.fst).Nodup)
    (hid : ("$rid", id) ∈ ps) (hne : id ≠ "") :
    ∃ r, parse (built status ps) = .ok r ∧ r.Says status ps id ∧
      ∀ ps', ps'.Perm ps → ∃ r', parse (built status ps') = .ok r' ∧ r'.Agrees r := by
  obtain ⟨r, hr, hsays⟩ := exists_says hstatus hkeys hid hne
  refine ⟨r, hr, hsays, fun ps' hperm => ?_⟩
  have hkeys' : (ps'.map Prod.fst).Nodup := (hperm.map Prod.fst).nodup_iff.2 hkeys
  obtain ⟨r', hr', hsays'⟩ := exists_says hstatus hkeys' (hperm.mem_iff.2 hid) hne
  exact ⟨r', hr', (hsays'.perm hperm).agrees hsays⟩

/-- Marks, a line feed, a plus sign, a percent sign and characters that are not of ASCII come back,
and the order of the pairs does not matter. -/
theorem parse_built_marks :
    ∃ (id : String) (ps : List (String × String)) (r r' : Response),
      id = "a&b=c%2B\n é😀 +" ∧ ps = [("$rid", id), ("retry-after", " +07\t"), ("", "=")] ∧
      parse (built 202 ps) = .ok r ∧ r.Says 202 ps id ∧
      parse (built 202 ps.reverse) = .ok r' ∧ r'.Agrees r := by
  let id := "a&b=c%2B\n é😀 +"
  let ps := [("$rid", id), ("retry-after", " +07\t"), ("", "=")]
  have hstatus : 202 ≤ 65535 := by decide
  have hkeys : (ps.map Prod.fst).Nodup := by decide
  have hid : ("$rid", id) ∈ ps := List.mem_cons_self
  have hne : id ≠ "" := by decide
  obtain ⟨r, hr, hsays, horder⟩ := parse_built hstatus hkeys hid hne
  obtain ⟨r', hr', hagrees⟩ := horder ps.reverse ps.reverse_perm
  exact ⟨id, ps, r, r', rfl, rfl, hr, hsays, hr', hagrees⟩

end Topic.Response

end DeviceProvisioning
