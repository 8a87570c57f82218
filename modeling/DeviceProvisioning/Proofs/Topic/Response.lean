import DeviceProvisioning.Topic.Response
import Mathlib.Data.List.Basic

/-!
# Topics of responses, written and read

The service writes the topic of a response from a status and the segments of its query, one of which
bears the id of the request (`Response.written`).  A segment is any text without `&` and without a
line feed, so this covers whatever form encoding yields, and more.

Reading takes three things apart, and each is undone by itself: the shape of the topic
(`shape?_eq_some_iff`), the numeral (`Number.readBounded_decimal`) and the query
(`Form.pairs_intercalate`).  `parse_written` puts them together.  Of several parameters with one key
the last counts, so nothing is asked of the segments before the id.
-/

namespace DeviceProvisioning

open Text Number

/-! ## Queries -/

namespace Text.Form

/-- The parameters that the segments of a query make. -/
def parameters (segments : List (List Char)) : List (String × String) :=
  (segments.filter (· ≠ [])).map pair

@[simp] theorem parameters_append (before after : List (List Char)) :
    parameters (before ++ after) = parameters before ++ parameters after := by
  simp [parameters]

theorem parameters_cons {segment : List Char} (h : segment ≠ []) (after : List (List Char)) :
    parameters (segment :: after) = pair segment :: parameters after := by
  simp [parameters, h]

/-- **A query is read segment by segment.** -/
theorem pairs_intercalate {segments : List (List Char)} (h : ∀ segment ∈ segments, '&' ∉ segment) :
    pairs (['&'].intercalate segments) = parameters segments := by
  cases segments with
  | nil => rfl
  | cons segment rest =>
    rw [pairs, List.splitOn_intercalate '&' h (List.cons_ne_nil _ _)]
    rfl

/-- What stands in a query is a mark between segments, or stands in one of them. -/
theorem mem_of_mem_intercalate {c : Char} {segments : List (List Char)}
    (h : c ∈ ['&'].intercalate segments) : c = '&' ∨ ∃ segment ∈ segments, c ∈ segment := by
  match segments with
  | [] => cases h
  | [segment] => exact .inr ⟨segment, List.mem_singleton_self _, by simpa [List.intercalate] using h⟩
  | segment :: next :: rest =>
    rw [List.intercalate_cons_cons, List.mem_append, List.mem_append, List.mem_singleton] at h
    rcases h with (hc | hmark) | hrest
    · exact .inr ⟨segment, List.mem_cons_self, hc⟩
    · exact .inl hmark
    · exact (mem_of_mem_intercalate hrest).imp_right fun ⟨s, hs, hc⟩ =>
        ⟨s, List.mem_cons_of_mem _ hs, hc⟩

theorem lookup_none_of_forall_ne {key : String} {ps : List (String × String)}
    (h : ∀ p ∈ ps, p.1 ≠ key) : ps.lookup key = none :=
  List.lookup_eq_none_iff.2 fun p hp => bne_iff_ne.2 (h p hp).symm

/-- **The last parameter with a key counts.** -/
theorem lastValue?_eq {key value : String} {before after : List (String × String)}
    (h : ∀ p ∈ after, p.1 ≠ key) : lastValue? key (before ++ (key, value) :: after) = some value := by
  have hnone : after.reverse.lookup key = none :=
    lookup_none_of_forall_ne fun p hp => h p (List.mem_reverse.1 hp)
  simp [lastValue?, List.lookup_append, hnone]

/-- A parameter with another key does not count. -/
theorem lastValue?_skip {key : String} {p : String × String} (h : p.1 ≠ key)
    (before after : List (String × String)) :
    lastValue? key (before ++ p :: after) = lastValue? key (before ++ after) := by
  obtain ⟨key', value⟩ := p
  have hkey : (key == key') = false := beq_false_of_ne h.symm
  simp [lastValue?, List.lookup_append, List.lookup_cons, hkey]

end Text.Form

/-! ## Topics -/

namespace Topic.Response

/-- **The topic of a response,** written from its status and the segments of its query. -/
def written (status : Nat) (segments : List (List Char)) : String :=
  String.ofList (stem ++ (decimal status ++ '/' :: '?' :: ['&'].intercalate segments))

/-- The segment that bears the id of a request, in whatever spelling. -/
def idSegment (text : List Char) : List Char :=
  requestIdKey.toList ++ '=' :: text

/-- A text that can stand between two marks of a query. -/
def IsSegment (text : List Char) : Prop :=
  '&' ∉ text ∧ '\n' ∉ text

instance (text : List Char) : Decidable (IsSegment text) :=
  inferInstanceAs (Decidable (_ ∧ _))

/-- The delay that the segments of a query ask for. -/
def delayOf? (segments : List (List Char)) : Option Nat :=
  (Form.lastValue? "retry-after" (Form.parameters segments)).bind delay?

/-- **The shape of the topics of responses.** -/
theorem shape?_eq_some_iff {topic status query : List Char} :
    shape? topic = some (status, query) ↔
      topic = stem ++ (status ++ '/' :: '?' :: query) ∧
        status ≠ [] ∧ '/' ∉ status ∧ '\n' ∉ query := by
  constructor
  · intro h
    simp only [shape?, Option.bind_eq_bind, Option.bind_eq_some_iff] at h
    obtain ⟨rest, hstem, ⟨text, tail⟩, hcut, hmatch⟩ := h
    obtain ⟨rfl, hslash⟩ := cutAt_eq_some_iff.1 hcut
    split at hmatch
    · -- the status is not empty, and a question mark begins the rest
      rename_i htext htail
      dsimp only at htext htail
      subst htext htail
      split at hmatch
      · cases hmatch
      · rename_i hline
        obtain ⟨rfl, rfl⟩ := Prod.mk.inj (Option.some.inj hmatch)
        exact ⟨(List.isPrefixOf?_eq_some_iff_append_eq.1 hstem).symm, List.cons_ne_nil _ _, hslash,
          hline⟩
    · cases hmatch
  · rintro ⟨rfl, hne, hslash, hline⟩
    have hstem : stem.isPrefixOf? (stem ++ (status ++ '/' :: '?' :: query))
        = some (status ++ '/' :: '?' :: query) := List.isPrefixOf?_eq_some_iff_append_eq.2 rfl
    have hcut : cutAt '/' (status ++ '/' :: '?' :: query) = some (status, '?' :: query) :=
      cutAt_eq_some_iff.2 ⟨rfl, hslash⟩
    obtain ⟨c, cs, rfl⟩ := List.exists_cons_of_ne_nil hne
    simp only [shape?, hstem, hcut, Option.bind_eq_bind, Option.bind_some, if_neg hline]

/-- The id of a request is read back from its segment. -/
theorem pair_idSegment (text : List Char) :
    Form.pair (idSegment text) = (requestIdKey, Form.decode text) := by
  have hcut : cutAt '=' (idSegment text) = some (requestIdKey.toList, text) :=
    cutAt_eq_some_iff.2 ⟨rfl, by decide⟩
  have hkey : Form.decode requestIdKey.toList = requestIdKey := by decide +kernel
  rw [Form.pair, hcut, ← hkey]
  simp [hkey]

variable {status : Nat} {before after : List (List Char)} {text : List Char}

/-- A topic that is written has the shape of a response. -/
theorem shape?_written {segments : List (List Char)} (h : ∀ segment ∈ segments, IsSegment segment) :
    shape? (written status segments).toList
      = some (decimal status, ['&'].intercalate segments) := by
  rw [written, String.toList_ofList]
  refine shape?_eq_some_iff.2 ⟨rfl, Nat.toDigits_ne_nil, fun hslash => ?_, fun hline => ?_⟩
  · cases isDigit_of_mem_decimal hslash
  · rcases Form.mem_of_mem_intercalate hline with hmark | ⟨segment, hsegment, hc⟩
    · cases hmark
    · exact (h segment hsegment).2 hc

/-- **A topic that is written is read back**: its status, the id that its query bears last, and its
delay, which the other segments may ask for. -/
theorem parse_written (hstatus : status ≤ 65535)
    (hothers : ∀ segment ∈ before ++ after, IsSegment segment) (htext : IsSegment text)
    (hlast : ∀ segment ∈ after, (Form.pair segment).1 ≠ requestIdKey)
    (hid : Form.decode text ≠ "") :
    parse (written status (before ++ idSegment text :: after)) = .ok
      { status
        requestId := Form.decode text
        retryAfter := delayOf? (before ++ after)
        parameters := Form.parameters (before ++ idSegment text :: after) } := by
  have hsegments : ∀ segment ∈ before ++ idSegment text :: after, IsSegment segment := by
    intro segment hmem
    rcases List.mem_append.1 hmem with hb | ha
    · exact hothers segment (List.mem_append_left _ hb)
    · rcases List.mem_cons.1 ha with rfl | ha
      · exact ⟨by simpa [idSegment, requestIdKey] using htext.1,
          by simpa [idSegment, requestIdKey] using htext.2⟩
      · exact hothers segment (List.mem_append_right _ ha)
  have hparameters : Form.parameters (before ++ idSegment text :: after)
      = Form.parameters before ++ (requestIdKey, Form.decode text) :: Form.parameters after := by
    rw [Form.parameters_append, Form.parameters_cons (by simp [idSegment]), pair_idSegment]
  have hkeys : ∀ p ∈ Form.parameters after, p.1 ≠ requestIdKey := by
    intro p hp
    obtain ⟨segment, hsegment, rfl⟩ := List.mem_map.1 hp
    exact hlast segment (List.mem_filter.1 hsegment).1
  have hvalue : Form.lastValue? requestIdKey (Form.parameters (before ++ idSegment text :: after))
      = some (Form.decode text) := by rw [hparameters, Form.lastValue?_eq hkeys]
  have hdelay : Form.lastValue? "retry-after"
        (Form.parameters (before ++ idSegment text :: after))
      = Form.lastValue? "retry-after" (Form.parameters (before ++ after)) := by
    have hkey : requestIdKey ≠ "retry-after" := by decide
    rw [hparameters, Form.lastValue?_skip hkey, Form.parameters_append]
  unfold parse
  rw [shape?_written hsegments]
  simp only [readBounded_decimal hstatus, Form.pairs_intercalate fun s hs => (hsegments s hs).1,
    hvalue, hdelay]
  rfl

end Topic.Response

end DeviceProvisioning
