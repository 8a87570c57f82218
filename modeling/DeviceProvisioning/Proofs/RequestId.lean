import DeviceProvisioning.Proofs.Text.FormEncoding
import DeviceProvisioning.RequestId
import Mathlib.Algebra.Group.Nat.Defs
import Mathlib.Data.List.Basic

/-!
# Request ids, written and read

A request bears its id in the spelling of `RequestId.render`, and the service is free to repeat it
as it stands.  Two things must come undone then: the form encoding of a query, which leaves the
plain characters of the spelling alone (`RequestId.plain_of_mem_chars`), and the spelling itself
(`RequestId.parse?_render`).

The spelling is a numeral of thirty-two digits in five groups.  A numeral is read back from its
digits (`Number.ofDigits?_hexDigits`), and the groups are taken apart where they have been joined.
-/

namespace DeviceProvisioning

/-! ## Numerals -/

namespace Number

/-- The value of a digit is read back, and no digit is a mark. -/
theorem hexValue?_hexDigit {n : Nat} (h : n < 16) : hexValue? (hexDigit n) = some n := by
  revert n
  decide

/-- The characters of a numeral are digits. -/
theorem exists_hexDigit_of_mem {width n : Nat} {c : Char} (h : c ∈ hexDigits width n) :
    ∃ d < 16, c = hexDigit d := by
  induction width generalizing n with
  | zero => cases h
  | succ width ih =>
    rcases List.mem_append.1 h with hc | hc
    · exact ih hc
    · exact ⟨n % 16, Nat.mod_lt _ (by decide), List.mem_singleton.1 hc⟩

/-- **A number is read back from its digits,** as far as they are wide enough for it. -/
theorem ofDigits?_hexDigits {width n : Nat} (h : n < 16 ^ width) :
    ofDigits? 16 (hexDigits width n) = some n := by
  have key : ∀ width n, n < 16 ^ width →
      ∃ values, (hexDigits width n).mapM (fun c => (hexValue? c).filter (· < 16)) = some values ∧
        values.foldl (fun n v => n * 16 + v) 0 = n := by
    intro width
    induction width with
    | zero =>
      intro n hn
      exact ⟨[], rfl, by simp at hn; simp [hn]⟩
    | succ width ih =>
      intro n hn
      have hlast : n % 16 < 16 := Nat.mod_lt _ (by decide)
      obtain ⟨values, hvalues, hfold⟩ := ih (n / 16) (by rw [Nat.pow_succ] at hn; omega)
      refine ⟨values ++ [n % 16], ?_, ?_⟩
      · rw [hexDigits, List.mapM_append, hvalues]
        simp [hexValue?_hexDigit hlast, Option.filter, hlast]
      · rw [List.foldl_append, hfold]
        simp only [List.foldl_cons, List.foldl_nil]
        omega
  obtain ⟨values, hvalues, hfold⟩ := key width n h
  rw [ofDigits?, hvalues, Option.map_some, hfold]

end Number

/-! ## Ids -/

namespace RequestId

theorem mem_group {digits : List Char} {c : Char} (h : c ∈ group digits) :
    c = '-' ∨ c ∈ digits := by
  simp only [group, List.append_assoc, List.cons_append, List.mem_append, List.mem_cons] at h
  rcases h with h | h | h | h | h | h | h | h | h
  · exact .inr (List.mem_of_mem_take h)
  · exact .inl h
  · exact .inr (List.mem_of_mem_drop (List.mem_of_mem_take h))
  · exact .inl h
  · exact .inr (List.mem_of_mem_drop (List.mem_of_mem_take h))
  · exact .inl h
  · exact .inr (List.mem_of_mem_drop (List.mem_of_mem_take h))
  · exact .inl h
  · exact .inr (List.mem_of_mem_drop h)

/-- **What the written form of an id is made of**: no mark of a query, and none of another
spelling. -/
theorem plain_of_mem_chars {id : RequestId} {c : Char} (h : c ∈ id.chars) :
    Text.IsPlain c ∧ c ≠ '{' ∧ c.toLower ≠ 'u' ∧ c ≠ '&' ∧ c ≠ '\n' := by
  have hdigit : ∀ d < 16, let c := Number.hexDigit d
      Text.IsPlain c ∧ c ≠ '{' ∧ c.toLower ≠ 'u' ∧ c ≠ '&' ∧ c ≠ '\n' := by decide
  rcases mem_group h with rfl | hc
  · decide
  · obtain ⟨d, hd, rfl⟩ := Number.exists_hexDigit_of_mem hc
    exact hdigit d hd

/-- Form encoding could have written what an id is made of. -/
theorem isWritten_of_mem_chars {id : RequestId} {c : Char} (h : c ∈ id.chars) :
    Text.Form.IsWritten c := by
  have hdigit : ∀ d < 16, Text.Form.IsWritten (Number.hexDigit d) := by decide
  rcases mem_group h with rfl | hc
  · decide
  · obtain ⟨d, hd, rfl⟩ := Number.exists_hexDigit_of_mem hc
    exact hdigit d hd

/-- The groups of digits are taken apart where they have been joined. -/
theorem ofGroups?_group {digits : List Char} (h : digits.length = 32) :
    ofGroups? (group digits) = ofDigits? digits := by
  -- the five groups, each of its own length
  obtain ⟨a, b, c, d, e, rfl, ha, hb, hc, hd⟩ : ∃ a b c d e : List Char,
      digits = a ++ (b ++ (c ++ (d ++ e))) ∧ a.length = 8 ∧ b.length = 4 ∧ c.length = 4 ∧
        d.length = 4 := by
    refine ⟨digits.take 8, (digits.drop 8).take 4, (digits.drop 12).take 4, (digits.drop 16).take 4,
      digits.drop 20, ?_, ?_, ?_, ?_, ?_⟩
    · conv_lhs => rw [← List.take_append_drop 8 digits, ← List.take_append_drop 4 (digits.drop 8),
        ← List.take_append_drop 4 ((digits.drop 8).drop 4),
        ← List.take_append_drop 4 (((digits.drop 8).drop 4).drop 4)]
      simp only [List.drop_drop]
    all_goals simp [h]
  have hgroup : group (a ++ (b ++ (c ++ (d ++ e))))
      = a ++ '-' :: (b ++ '-' :: (c ++ '-' :: (d ++ '-' :: e))) := by
    simp [group, List.drop_append, List.drop_eq_nil_of_le, ha, hb, hc, hd]
  have hlength : e.length = 12 := by
    simp only [List.length_append] at h
    omega
  rw [hgroup, ofGroups?, if_pos]
  · simp [List.drop_append, List.drop_eq_nil_of_le, ha, hb, hc, hd]
  · refine ⟨by simp [ha, hb, hc, hd, hlength], ?_⟩
    simp [List.drop_append, List.drop_eq_nil_of_le, ha, hb, hc, hd, hgroup]

/-- **An id is read back from its written form.** -/
theorem parse?_render (id : RequestId) : parse? id.render = some id := by
  have hdigits : (Number.hexDigits 32 id.val.toNat).length = 32 := Number.length_hexDigits 32 _
  have hbrace : ∀ rest, id.chars ≠ '{' :: rest := by
    intro rest heq
    have hmem : '{' ∈ id.chars := heq ▸ List.mem_cons_self
    exact (plain_of_mem_chars hmem).2.1 rfl
  have hlength : id.chars.length = 36 := by
    simp [chars, group, hdigits]
  have hurn : (id.chars.take 9).map Char.toLower ≠ "urn:uuid:".toList := by
    intro heq
    have hu : 'u' ∈ (id.chars.take 9).map Char.toLower := heq ▸ by decide
    obtain ⟨c, hc, hlower⟩ := List.mem_map.1 hu
    exact (plain_of_mem_chars (List.mem_of_mem_take hc)).2.2.1 hlower
  have hread : ofGroups? id.chars = some id := by
    rw [chars, ofGroups?_group hdigits, ofDigits?, if_pos hdigits,
      Number.ofDigits?_hexDigits id.val.isLt]
    simp [ofNat]
  rw [parse?, render, String.toList_ofList]
  unfold ofChars?
  split
  · rename_i rest heq
    exact absurd heq (hbrace rest)
  · rw [if_neg hurn, if_neg (by omega), hread]

end RequestId

end DeviceProvisioning
