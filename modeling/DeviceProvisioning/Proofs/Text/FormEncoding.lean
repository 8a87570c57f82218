import DeviceProvisioning.Proofs.Text.Utf8
import DeviceProvisioning.Text.FormEncoding

/-!
# Form encoding, written and read

A plain character is one octet, and form encoding has no use for it, so that it is read as it stands
(`Form.decode_plain`).  What a text is encoded as are plain characters, but for the plus signs that
stand for its spaces and the percent signs of its escapes, and none of them is a mark of a query or
a line feed (`Form.safe_encode`).  A plus sign of the text is escaped, so putting spaces back in
place of plus signs before the escapes are resolved does no harm: octet by octet this gives back
what was encoded (`Form.unescape_spaced`).  With the round trip of UTF-8 a text is read back from
its encoding, whatever it holds (`Form.decode_encode`).
-/

namespace DeviceProvisioning.Text

/-- A character that form encoding has no use for, written as one octet. -/
def IsPlain (c : Char) : Prop :=
  c.toNat < 0x80 ∧ c ≠ '%' ∧ c ≠ '+'

instance (c : Char) : Decidable (IsPlain c) :=
  inferInstanceAs (Decidable (_ ∧ _))

namespace Form

/-! ## Plus signs -/

/-- The octets of a text in which plus signs stand for spaces. -/
def spaced (cs : List Char) : Octets :=
  (Utf8.encode (String.ofList cs)).map fun b => if b == 0x2B then 0x20 else b

theorem decode_eq (cs : List Char) : decode cs = Utf8.decodeLossy (unescape (spaced cs)) := rfl

theorem spaced_nil : spaced [] = [] := by
  simp [spaced, Utf8.encode]

theorem spaced_append (cs cs' : List Char) : spaced (cs ++ cs') = spaced cs ++ spaced cs' := by
  simp [spaced, Utf8.encode]

/-- Different characters of one octet are different octets. -/
theorem octet_ne {c d : Char} (hc : c.toNat < 0x80) (hd : d.toNat < 0x80) (h : c ≠ d) :
    UInt8.ofNat c.toNat ≠ UInt8.ofNat d.toNat := by
  intro heq
  have hnat := congrArg UInt8.toNat heq
  rw [Utf8.toNat_octet (by omega), Utf8.toNat_octet (by omega)] at hnat
  exact h (by rw [← Char.ofNat_toNat c, hnat, Char.ofNat_toNat])

/-- A character of one octet that is no plus sign is this octet. -/
theorem spaced_cons {c : Char} (h : c.toNat < 0x80) (hplus : c ≠ '+') (cs : List Char) :
    spaced (c :: cs) = UInt8.ofNat c.toNat :: spaced cs := by
  have hother : UInt8.ofNat c.toNat ≠ 0x2B := octet_ne h (by decide) hplus
  simp [spaced, Utf8.encode, Utf8.utf8EncodeChar_short h, hother]

/-! ## Escapes -/

/-- An octet that begins no escape stands for itself. -/
theorem unescape_cons {b : UInt8} (h : b ≠ 0x25) (rest : Octets) :
    unescape (b :: rest) = b :: unescape rest := by
  rw [unescape.eq_def]
  simp only [beq_iff_eq, h, if_false]

/-- An escape stands for the octet with these two digits. -/
theorem unescape_escape {h l : UInt8} {high low : Nat} (hh : hexValue? h = some high)
    (hl : hexValue? l = some low) (rest : Octets) :
    unescape (0x25 :: h :: l :: rest) = UInt8.ofNat (high * 16 + low) :: unescape rest := by
  rw [unescape]
  simp only [hh, hl]
  rfl

/-- **A plain character is read as it stands.** -/
theorem unescape_plain {c : Char} (h : IsPlain c) (cs : List Char) :
    unescape (spaced (c :: cs)) = UInt8.ofNat c.toNat :: unescape (spaced cs) := by
  obtain ⟨hascii, hpercent, hplus⟩ := h
  rw [spaced_cons hascii hplus, unescape_cons (octet_ne hascii (by decide) hpercent)]

/-- **Form encoding leaves plain characters alone.** -/
theorem decode_plain {cs : List Char} (h : ∀ c ∈ cs, IsPlain c) :
    decode cs = String.ofList cs := by
  have hunescape : unescape (spaced cs) = Utf8.encode (String.ofList cs) := by
    induction cs with
    | nil => rw [spaced_nil, unescape, Utf8.encode_ofList_nil]
    | cons c cs ih =>
      rw [List.forall_mem_cons] at h
      rw [unescape_plain h.1, ih h.2, Utf8.encode_ofList_cons, Utf8.utf8EncodeChar_short h.1.1]
      rfl
  rw [decode_eq, hunescape, Utf8.decodeLossy_encode]

/-! ## One octet -/

/-- A character that is no mark of a query, and no line feed. -/
def IsSafe (c : Char) : Prop :=
  c ≠ '&' ∧ c ≠ '=' ∧ c ≠ '\n'

instance : DecidablePred IsSafe :=
  fun c => inferInstanceAs (Decidable (c ≠ '&' ∧ c ≠ '=' ∧ c ≠ '\n'))

/-- A hexadecimal digit is plain and safe, and is read back. -/
theorem hexDigit_spec : ∀ n < 16, IsPlain (hexDigit n) ∧ IsSafe (hexDigit n) ∧
    hexValue? (UInt8.ofNat (hexDigit n).toNat) = some n := by
  decide

/-- An octet that is written as it is stands for a character that is plain and safe: a letter, a
digit or one of four signs. -/
theorem isPlain_spec {b : UInt8} (h : isPlain b = true) :
    (Char.ofNat b.toNat).toNat = b.toNat ∧ IsPlain (Char.ofNat b.toNat) ∧
      IsSafe (Char.ofNat b.toNat) := by
  simp only [isPlain, Bool.or_eq_true, Bool.and_eq_true, decide_eq_true_eq, beq_iff_eq,
    UInt8.le_iff_toNat_le, ← UInt8.toNat_inj, UInt8.reduceToNat] at h
  have hchar : (Char.ofNat b.toNat).toNat = b.toNat := by
    rw [Char.ofNat, dif_pos (.inl (by omega))]
    rfl
  have hother {n : Nat} {c : Char} (hc : c.toNat = n) (hn : b.toNat ≠ n) :
      Char.ofNat b.toNat ≠ c := by
    rintro rfl
    exact hn (hchar.symm.trans hc)
  refine ⟨hchar, ⟨by omega, hother (n := 0x25) rfl ?_, hother (n := 0x2B) rfl ?_⟩,
    hother (n := 0x26) rfl ?_, hother (n := 0x3D) rfl ?_, hother (n := 0x0A) rfl ?_⟩ <;> omega

/-- **One octet is read back.** -/
theorem unescape_encodeOctet (b : UInt8) (cs : List Char) :
    unescape (spaced (encodeOctet b ++ cs)) = b :: unescape (spaced cs) := by
  unfold encodeOctet
  split
  case isTrue h =>
    -- a space, which is a plus sign in between
    obtain rfl : b = 0x20 := by simpa using h
    rw [spaced_append, show spaced ['+'] = [0x20] by decide]
    exact unescape_cons (by decide) _
  split
  case isTrue h =>
    obtain ⟨hchar, hplain, -⟩ := isPlain_spec h
    rw [List.singleton_append, unescape_plain hplain, hchar, UInt8.ofNat_toNat]
  · have hb : b.toNat < 256 := b.toNat_lt
    obtain ⟨⟨hhigh, -, hplus⟩, -, hvalue⟩ := hexDigit_spec (b.toNat / 16) (by omega)
    obtain ⟨⟨hlow, -, hplus'⟩, -, hvalue'⟩ := hexDigit_spec (b.toNat % 16) (by omega)
    rw [escape, List.cons_append, List.cons_append, List.cons_append, List.nil_append,
      spaced_cons (by decide) (by decide), spaced_cons hhigh hplus, spaced_cons hlow hplus',
      show UInt8.ofNat '%'.toNat = 0x25 by decide, unescape_escape hvalue hvalue',
      Nat.div_add_mod', UInt8.ofNat_toNat]

/-! ## Texts -/

/-- **Octets are read back.** -/
theorem unescape_spaced (octets : Octets) :
    unescape (spaced (octets.flatMap encodeOctet)) = octets := by
  induction octets with
  | nil => rw [List.flatMap_nil, spaced_nil, unescape]
  | cons b rest ih => rw [List.flatMap_cons, unescape_encodeOctet, ih]

/-- **A text is read back from its encoding.** -/
theorem decode_encode (s : String) : decode (encode s).toList = s := by
  rw [decode_eq, encode, String.toList_ofList, unescape_spaced, Utf8.decodeLossy_encode]

/-- **No mark and no line feed stands in what a text is encoded as.** -/
theorem safe_encode {s : String} {c : Char} (h : c ∈ (encode s).toList) : IsSafe c := by
  rw [encode, String.toList_ofList] at h
  obtain ⟨b, -, hb⟩ := List.mem_flatMap.1 h
  unfold encodeOctet at hb
  split at hb
  · rw [List.mem_singleton.1 hb]
    decide
  split at hb
  · rw [List.mem_singleton.1 hb]
    exact (isPlain_spec ‹_›).2.2
  · have hb' : b.toNat < 256 := b.toNat_lt
    simp only [escape, List.mem_cons, List.not_mem_nil, or_false] at hb
    obtain rfl | rfl | rfl := hb
    · decide
    · exact (hexDigit_spec (b.toNat / 16) (by omega)).2.1
    · exact (hexDigit_spec (b.toNat % 16) (by omega)).2.1

/-- Different texts have different encodings. -/
theorem encode_injective : Function.Injective encode := by
  intro s s' h
  rw [← decode_encode s, h, decode_encode]

/-! ## The alphabet -/

/-- A character that can stand in an encoded text. -/
def IsWritten (c : Char) : Prop :=
  c = '+' ∨ c = '%' ∨ c.toNat < 0x80 ∧ isPlain (UInt8.ofNat c.toNat) = true

instance : DecidablePred IsWritten :=
  fun c => inferInstanceAs (Decidable (c = '+' ∨ c = '%' ∨ _ ∧ _))

theorem isWritten_hexDigit : ∀ n < 16, IsWritten (hexDigit n) := by
  decide

/-- **The alphabet of form encoding.** -/
theorem isWritten_of_mem_encode {s : String} {c : Char} (h : c ∈ (encode s).toList) :
    IsWritten c := by
  rw [encode, String.toList_ofList] at h
  obtain ⟨b, -, hb⟩ := List.mem_flatMap.1 h
  unfold encodeOctet at hb
  split at hb
  · exact .inl (List.mem_singleton.1 hb)
  split at hb
  · rename_i hplain
    obtain ⟨hchar, ⟨hshort, -⟩, -⟩ := isPlain_spec hplain
    rw [List.mem_singleton.1 hb]
    refine .inr (.inr ⟨hshort, ?_⟩)
    rwa [hchar, UInt8.ofNat_toNat]
  · have hb' : b.toNat < 256 := b.toNat_lt
    simp only [escape, List.mem_cons, List.not_mem_nil, or_false] at hb
    obtain rfl | rfl | rfl := hb
    · exact .inr (.inl rfl)
    · exact isWritten_hexDigit (b.toNat / 16) (by omega)
    · exact isWritten_hexDigit (b.toNat % 16) (by omega)

/-- Only a space is written as a plus sign. -/
theorem plus_mem_encodeOctet_iff {b : UInt8} : '+' ∈ encodeOctet b ↔ b = 0x20 := by
  constructor
  · intro h
    by_cases hspace : b = 0x20
    · exact hspace
    exfalso
    unfold encodeOctet at h
    rw [if_neg (by simpa using hspace)] at h
    split at h
    · rename_i hplain
      obtain ⟨-, ⟨-, -, hplus⟩, -⟩ := isPlain_spec hplain
      exact hplus (List.mem_singleton.1 h).symm
    · have hb : b.toNat < 256 := b.toNat_lt
      obtain ⟨⟨-, -, hhigh⟩, -⟩ := hexDigit_spec (b.toNat / 16) (by omega)
      obtain ⟨⟨-, -, hlow⟩, -⟩ := hexDigit_spec (b.toNat % 16) (by omega)
      simp only [escape, List.mem_cons, List.not_mem_nil, or_false] at h
      rcases h with h | h | h
      · cases h
      · exact hhigh h.symm
      · exact hlow h.symm
  · rintro rfl
    exact List.mem_singleton_self _

/-- **A plus sign stands in an encoded text exactly if a space stands in the text.** -/
theorem plus_mem_encode_iff {s : String} : '+' ∈ (encode s).toList ↔ ' ' ∈ s.toList := by
  rw [encode, String.toList_ofList, List.mem_flatMap, ← Utf8.octet_mem_encode_iff (by decide)]
  constructor
  · rintro ⟨b, hb, hplus⟩
    rw [plus_mem_encodeOctet_iff.1 hplus] at hb
    exact hb
  · intro h
    exact ⟨0x20, h, plus_mem_encodeOctet_iff.2 rfl⟩

end Form
end DeviceProvisioning.Text
