import DeviceProvisioning.Text.Utf8

/-!
# UTF-8, written and read

A reader of UTF-8 takes a lead octet, which announces how many octets follow and in which range the
first of them is, and then one octet after the other.  The octets of a character are read as that
character and no more (`Utf8.next_utf8EncodeChar`): the lead octet announces what the writer goes on
with, because a character that needs so many octets is not overlong and not a surrogate.  So a text
is read back from its octets, character by character (`Utf8.decode_encode`).

The octets of longer characters are no octets of ASCII (`Utf8.toNat_of_mem`), so that whoever works
octet by octet meets a character of ASCII exactly where the text has it.
-/

namespace DeviceProvisioning.Text.Utf8

/-! ## One octet -/

theorem toNat_octet {n : Nat} (h : n < 256) : (UInt8.ofNat n).toNat = n := by
  rw [UInt8.toNat_ofNat', Nat.mod_eq_of_lt h]

/-- What a lead octet announces, by its number. -/
theorem lead?_eq (b : UInt8) :
    lead? b =
      if b.toNat < 0xC2 then none
      else if b.toNat ≤ 0xDF then some ⟨b.toNat - 0xC0, 0x80, 0xBF, 0⟩
      else if b.toNat = 0xE0 then some ⟨0, 0xA0, 0xBF, 1⟩
      else if b.toNat = 0xED then some ⟨0xD, 0x80, 0x9F, 1⟩
      else if b.toNat ≤ 0xEF then some ⟨b.toNat - 0xE0, 0x80, 0xBF, 1⟩
      else if b.toNat = 0xF0 then some ⟨0, 0x90, 0xBF, 2⟩
      else if b.toNat ≤ 0xF3 then some ⟨b.toNat - 0xF0, 0x80, 0xBF, 2⟩
      else if b.toNat = 0xF4 then some ⟨4, 0x80, 0x8F, 2⟩
      else none := by
  simp only [lead?, UInt8.lt_iff_toNat_lt, UInt8.le_iff_toNat_le, beq_iff_eq, ← UInt8.toNat_inj]
  rfl

/-- An octet that continues a character adds its six bits. -/
theorem push_octet {k : Nat} (hk : k < 64) (value : Nat) :
    push value (UInt8.ofNat (k + 128)) = value * 64 + k := by
  unfold push
  rw [toNat_octet (by omega)]
  omega

/-- An octet that continues a character is taken. -/
theorem tails_octet {k : Nat} (hk : k < 64) (count value : Nat) (rest : Octets) :
    tails (count + 1) value (UInt8.ofNat (k + 128) :: rest)
      = tails count (value * 64 + k) rest := by
  have hoctet : (UInt8.ofNat (k + 128)).toNat = k + 128 := toNat_octet (by omega)
  have htail : isTail (UInt8.ofNat (k + 128)) = true := by
    simp only [isTail, UInt8.le_iff_toNat_le, hoctet, Bool.and_eq_true, decide_eq_true_eq]
    show 128 ≤ k + 128 ∧ k + 128 ≤ 191
    omega
  rw [tails, if_pos htail, push_octet hk]

/-! ## What the lead octet of a character announces -/

/-- **The lead octet announces the second octet of a character**: its own bits are those of `bits`,
so many more octets follow the second one, and that one is in the range. -/
def Announces (n bits k more : Nat) : Prop :=
  ∃ lo hi : UInt8, lead? (UInt8.ofNat n) = some ⟨bits, lo, hi, more⟩ ∧
    lo.toNat ≤ k + 128 ∧ k + 128 ≤ hi.toNat

section Leads
variable {v : Nat}

theorem announces_two (h : 0x7F < v) (h' : v ≤ 0x7FF) :
    Announces (v / 64 % 32 + 192) (v / 64) (v % 64) 0 := by
  refine ⟨0x80, 0xBF, ?_, by show 128 ≤ _; omega, by show _ ≤ 191; omega⟩
  rw [lead?_eq, toNat_octet (by omega), if_neg (by omega), if_pos (by omega)]
  simp only [Option.some.injEq, Lead.mk.injEq, and_true]
  omega

/-- The second octet is in its range, since the character is not overlong and not a surrogate. -/
theorem announces_three (h : 0x7FF < v) (h' : v ≤ 0xFFFF) (hs : v < 0xD800 ∨ 0xDFFF < v) :
    Announces (v / 4096 % 16 + 224) (v / 4096) (v / 64 % 64) 1 := by
  unfold Announces
  rw [lead?_eq, toNat_octet (by omega), if_neg (by omega), if_neg (by omega)]
  by_cases hfirst : v / 4096 = 0
  · refine ⟨0xA0, 0xBF, ?_, by show 160 ≤ _; omega, by show _ ≤ 191; omega⟩
    rw [if_pos (by omega), hfirst]
  by_cases hsurrogate : v / 4096 = 13
  · refine ⟨0x80, 0x9F, ?_, by show 128 ≤ _; omega, by show _ ≤ 159; omega⟩
    rw [if_neg (by omega), if_pos (by omega), hsurrogate]
  · refine ⟨0x80, 0xBF, ?_, by show 128 ≤ _; omega, by show _ ≤ 191; omega⟩
    rw [if_neg (by omega), if_neg (by omega), if_pos (by omega)]
    simp only [Option.some.injEq, Lead.mk.injEq, and_true]
    omega

/-- The second octet is in its range, since the character is not overlong and not too large. -/
theorem announces_four (h : 0xFFFF < v) (h' : v < 0x110000) :
    Announces (v / 262144 % 8 + 240) (v / 262144) (v / 4096 % 64) 2 := by
  unfold Announces
  rw [lead?_eq, toNat_octet (by omega), if_neg (by omega), if_neg (by omega), if_neg (by omega),
    if_neg (by omega), if_neg (by omega)]
  by_cases hfirst : v / 262144 = 0
  · refine ⟨0x90, 0xBF, ?_, by show 144 ≤ _; omega, by show _ ≤ 191; omega⟩
    rw [if_pos (by omega), hfirst]
  by_cases hlast : v / 262144 = 4
  · refine ⟨0x80, 0x8F, ?_, by show 128 ≤ _; omega, by show _ ≤ 143; omega⟩
    rw [if_neg (by omega), if_neg (by omega), if_pos (by omega), hlast]
  · refine ⟨0x80, 0xBF, ?_, by show 128 ≤ _; omega, by show _ ≤ 191; omega⟩
    rw [if_neg (by omega), if_pos (by omega)]
    simp only [Option.some.injEq, Lead.mk.injEq, and_true]
    omega

end Leads

/-- What has been announced is read on. -/
theorem Announces.next {n bits k more : Nat} (h : Announces n bits k more) (hn : 128 ≤ n)
    (hn' : n < 256) (hk : k < 64) (rest : Octets) :
    Utf8.next (UInt8.ofNat n) (UInt8.ofNat (k + 128) :: rest)
      = tails more (bits * 64 + k) rest := by
  obtain ⟨lo, hi, hlead, hlo, hhi⟩ := h
  have hoctet : (UInt8.ofNat (k + 128)).toNat = k + 128 := toNat_octet (by omega)
  have hlong : ¬ UInt8.ofNat n < 0x80 := by
    rw [UInt8.lt_iff_toNat_lt, toNat_octet hn']
    show ¬ n < 128
    omega
  have hrange : (decide (lo ≤ UInt8.ofNat (k + 128))
      && decide (UInt8.ofNat (k + 128) ≤ hi)) = true := by
    rw [Bool.and_eq_true, decide_eq_true_iff, decide_eq_true_iff, UInt8.le_iff_toNat_le,
      UInt8.le_iff_toNat_le, hoctet]
    exact ⟨hlo, hhi⟩
  unfold Utf8.next
  simp only [if_neg hlong, hlead, hrange, if_true, push_octet hk]

/-! ## Characters -/

/-- A character is not a surrogate, and not too large. -/
theorem scalar (c : Char) : c.toNat < 0xD800 ∨ 0xDFFF < c.toNat ∧ c.toNat < 0x110000 :=
  c.valid

/-- A character of ASCII is one octet. -/
theorem utf8EncodeChar_short {c : Char} (h : c.toNat < 0x80) :
    String.utf8EncodeChar c = [UInt8.ofNat c.toNat] := by
  have hshort : c.val.toNat ≤ 0x7F := Nat.le_of_lt_succ h
  rw [String.utf8EncodeChar, if_pos hshort]
  rfl

/-- **The octets of a character are read as this character**, and what follows them is left. -/
theorem next_utf8EncodeChar (c : Char) (rest : Octets) :
    ∃ b more, String.utf8EncodeChar c = b :: more ∧ next b (more ++ rest) = (some c, rest) := by
  have hscalar := scalar c
  have hread {value : Nat} (h : value = c.toNat) : tails 0 value rest = (some c, rest) := by
    rw [tails, h, Char.ofNat_toNat]
  unfold String.utf8EncodeChar
  simp only [show c.val.toNat = c.toNat from rfl]
  split
  case isTrue h =>
    refine ⟨_, _, rfl, ?_⟩
    have hoctet : (UInt8.ofNat c.toNat).toNat = c.toNat := toNat_octet (by omega)
    have hshort : UInt8.ofNat c.toNat < 0x80 := by
      rw [UInt8.lt_iff_toNat_lt, hoctet]
      show c.toNat < 128
      omega
    unfold next
    rw [if_pos hshort, hoctet, Char.ofNat_toNat, List.nil_append]
  split
  case isTrue h =>
    refine ⟨_, _, rfl, ?_⟩
    rw [List.cons_append, (announces_two (by omega) h).next (by omega) (by omega) (by omega)]
    exact hread (by omega)
  split
  case isTrue h =>
    refine ⟨_, _, rfl, ?_⟩
    rw [List.cons_append, (announces_three (by omega) h (by omega)).next (by omega) (by omega)
      (by omega), List.cons_append, tails_octet (by omega)]
    exact hread (by omega)
  · refine ⟨_, _, rfl, ?_⟩
    rw [List.cons_append, (announces_four (by omega) (by omega)).next (by omega) (by omega)
      (by omega), List.cons_append, tails_octet (by omega), List.cons_append,
      tails_octet (by omega)]
    exact hread (by omega)

/-- An octet of ASCII in the form of a character is the whole of it. -/
theorem toNat_of_mem {c : Char} {b : UInt8} (h : b ∈ String.utf8EncodeChar c)
    (hb : b.toNat < 0x80) : c.toNat = b.toNat := by
  have hlong {n : Nat} (hn : 128 ≤ n) (hn' : n < 256) : b ≠ UInt8.ofNat n := by
    rintro rfl
    rw [toNat_octet hn'] at hb
    omega
  have hscalar := scalar c
  unfold String.utf8EncodeChar at h
  simp only [show c.val.toNat = c.toNat from rfl] at h
  split at h
  case isTrue hc =>
    rw [List.mem_singleton.1 h]
    exact (toNat_octet (by omega)).symm
  -- every octet of a longer form announces or continues
  all_goals exfalso
  split at h
  · simp only [List.mem_cons, List.not_mem_nil, or_false] at h
    rcases h with h | h <;> exact hlong (by omega) (by omega) h
  split at h
  · simp only [List.mem_cons, List.not_mem_nil, or_false] at h
    rcases h with h | h | h <;> exact hlong (by omega) (by omega) h
  · simp only [List.mem_cons, List.not_mem_nil, or_false] at h
    rcases h with h | h | h | h <;> exact hlong (by omega) (by omega) h

/-! ## Texts -/

theorem encode_ofList_nil : encode (String.ofList []) = [] := by
  simp [encode]

theorem encode_ofList_cons (c : Char) (cs : List Char) :
    encode (String.ofList (c :: cs)) = String.utf8EncodeChar c ++ encode (String.ofList cs) := by
  simp [encode]

/-- **A character of ASCII stands in a text exactly if its octet stands in the text's octets.** -/
theorem octet_mem_encode_iff {s : String} {c : Char} (hc : c.toNat < 0x80) :
    UInt8.ofNat c.toNat ∈ encode s ↔ c ∈ s.toList := by
  have hoctet : (UInt8.ofNat c.toNat).toNat = c.toNat := toNat_octet (by omega)
  rw [encode, List.mem_flatMap]
  constructor
  · rintro ⟨d, hd, hmem⟩
    have hnat := toNat_of_mem hmem (by omega)
    obtain rfl : d = c := by
      rw [← Char.ofNat_toNat d, hnat, hoctet, Char.ofNat_toNat]
    exact hd
  · intro h
    refine ⟨c, h, ?_⟩
    rw [utf8EncodeChar_short hc]
    exact List.mem_singleton_self _

/-- **A text is read back from its octets.** -/
theorem decode_encode (s : String) : decode (encode s) = s.toList.map some := by
  unfold encode
  induction s.toList with
  | nil => simp [decode]
  | cons c cs ih =>
    obtain ⟨b, more, heq, hnext⟩ := next_utf8EncodeChar c (cs.flatMap String.utf8EncodeChar)
    rw [List.flatMap_cons, heq, List.cons_append, decode, hnext, ih, List.map_cons]

theorem decodeLossy_encode (s : String) : decodeLossy (encode s) = s := by
  rw [decodeLossy, decode_encode, List.map_map, ← String.toList_inj, String.toList_ofList]
  exact List.map_id _

end DeviceProvisioning.Text.Utf8
