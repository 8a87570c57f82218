import DeviceProvisioning.Json.Parser
import DeviceProvisioning.Json.Printer
import DeviceProvisioning.Proofs.Number.Decimal
import DeviceProvisioning.Proofs.RequestId

/-!
# Numbers and strings of JSON, written and read

A reader takes a number or a string off the front of a text.  Of a string it knows where it ends, by
the mark; of a number it does not, so that it matters what comes next.  In a text that is written
this is always a comma or a closing bracket, or nothing (`Ends`).

`Literal.scan_integer` and `string_quote` say that an integer of sixty-four bits and any string are
read back, and `Literal.value?_cases` that an integer that is read is one of sixty-four bits.
-/

namespace DeviceProvisioning.Json

open DeviceProvisioning.Number

/-- **Characters as a reader takes them**, all of them well-formed. -/
abbrev taken (cs : List Char) : Symbols :=
  cs.map some

theorem taken_append (cs cs' : List Char) : taken (cs ++ cs') = taken cs ++ taken cs' :=
  List.map_append

/-- **What comes after a value that is written**: nothing, a comma or a closing bracket. -/
inductive Ends : Symbols → Prop where
  | all : Ends []
  | comma (rest : Symbols) : Ends (some ',' :: rest)
  | bracket (rest : Symbols) : Ends (some ']' :: rest)
  | brace (rest : Symbols) : Ends (some '}' :: rest)

/-! ## Integers -/

/-- Digits are taken to their end. -/
theorem takeDigits_taken {digits : List Char} (h : ∀ c ∈ digits, c.isDigit = true) {rest : Symbols}
    (hrest : Ends rest) : takeDigits (taken digits ++ rest) = (digits, rest) := by
  induction digits with
  | nil => cases hrest <;> rfl
  | cons c digits ih =>
    have hc : c.isDigit = true := h c List.mem_cons_self
    have hdigits := ih fun d hd => h d (List.mem_cons_of_mem _ hd)
    show takeDigits (some c :: (taken digits ++ rest)) = _
    rw [takeDigits, if_pos hc, hdigits]

namespace Literal

/-- Digits fill a significand, as long as their value is small enough. -/
theorem fill_eq {digits : List Char} {start : Nat}
    (h : Nat.ofDigitChars 10 digits start < UInt64.size) :
    fill start digits = (Nat.ofDigitChars 10 digits start, []) := by
  induction digits generalizing start with
  | nil => rfl
  | cons c digits ih =>
    rw [Nat.ofDigitChars_cons] at h ⊢
    have hnext : start * 10 + (c.toNat - '0'.toNat) = 10 * start + (c.toNat - '0'.toNat) := by omega
    have hsmall : 10 * start + (c.toNat - '0'.toNat) < UInt64.size := by
      refine Nat.lt_of_le_of_lt ?_ h
      rw [Nat.ofDigitChars_eq_ofDigitChars_zero]
      exact Nat.le_trans (Nat.le_mul_of_pos_left _ (Nat.pow_pos (by decide))) (Nat.le_add_right _ _)
    rw [fill, hnext, if_pos hsmall, ih h]

/-- A significand stays below 2^64. -/
theorem fill_lt {digits : List Char} {start : Nat} (h : start < UInt64.size) :
    (fill start digits).1 < UInt64.size := by
  fun_induction fill start digits with
  | case1 => exact h
  | case2 start c rest next hnext ih => exact ih hnext
  | case3 => exact h

/-- **A literal denotes** an integer of sixty-four bits or a floating-point number. -/
theorem value?_cases {l : Literal} {v : Json} (h : l.value? = some v) :
    (∃ n, v = .int n ∧ InRange n) ∨ ∃ x, v = .float x := by
  have hlt : (fill 0 l.whole).1 < UInt64.size := fill_lt (by decide)
  have hfloat {significand : Nat} {power : Int} (h : l.float? significand power = some v) :
      ∃ x, v = .float x := by
    obtain ⟨f, -, rfl⟩ := Option.map_eq_some_iff.1 h
    exact ⟨_, rfl⟩
  have hsize : (UInt64.size : Int) = 18446744073709551616 := rfl
  have hhalf : ((UInt64.size / 2 : Nat) : Int) = 9223372036854775808 := rfl
  unfold value? at h
  generalize fill 0 l.whole = filled at h hlt
  obtain ⟨significand, excess⟩ := filled
  dsimp only at h hlt
  split at h
  · split at h
    · split at h
      · exact .inr (hfloat h)
      · refine .inl ⟨-significand, (Option.some.inj h).symm, ?_⟩
        unfold InRange
        omega
    · refine .inl ⟨significand, (Option.some.inj h).symm, ?_⟩
      unfold InRange
      omega
  · exact .inr (hfloat h)

/-- Nothing is left of a text behind digits that end it. -/
theorem scanTail_ends (l : Literal) {rest : Symbols} (h : Ends rest) :
    scanTail l rest = some (l, rest) := by
  cases h <;> rfl

/-- The scan of a number behind its sign. -/
def scanUnsigned (negative : Bool) (s : Symbols) : Option (Literal × Symbols) :=
  match takeDigits s with
  | ([], _) => none
  | ('0' :: _ :: _, _) => none
  | (whole, some '.' :: rest) =>
    match takeDigits rest with
    | ([], _) => none
    | (fraction, rest) => scanTail ⟨negative, whole, some fraction, none⟩ rest
  | (whole, rest) => scanTail ⟨negative, whole, none, none⟩ rest

theorem scan_plain {c : Char} (hc : c ≠ '-') (s : Symbols) :
    scan (some c :: s) = scanUnsigned false (some c :: s) := by
  unfold scan
  split
  · rename_i hsign
    split at hsign
    · rename_i heq
      exact absurd (Option.some.inj (List.cons.inj heq).1) hc
    · obtain ⟨rfl, rfl⟩ := Prod.mk.inj hsign
      rfl

/-- **The digits of a number are scanned** to their end. -/
theorem scanUnsigned_decimal (negative : Bool) (n : Nat) {rest : Symbols} (h : Ends rest) :
    scanUnsigned negative (taken (decimal n) ++ rest)
      = some (⟨negative, decimal n, none, none⟩, rest) := by
  have htake : takeDigits (taken (decimal n) ++ rest) = (decimal n, rest) :=
    takeDigits_taken (fun _ hc => isDigit_of_mem_decimal hc) h
  have hne : decimal n ≠ [] := Nat.toDigits_ne_nil
  -- no zero stands in front of other digits
  have hzero : ∀ d more, decimal n ≠ '0' :: d :: more := by
    intro d more heq
    rcases Nat.eq_zero_or_pos n with rfl | hpos
    · cases heq
    · exact head_decimal hpos _ heq
  unfold scanUnsigned
  rw [htake]
  split
  · rename_i heq
    exact absurd (Prod.mk.inj heq).1 hne
  · rename_i heq
    exact absurd (Prod.mk.inj heq).1 (hzero _ _)
  · rename_i heq
    obtain ⟨-, rfl⟩ := Prod.mk.inj heq
    cases h
  · rename_i heq
    obtain ⟨rfl, rfl⟩ := Prod.mk.inj heq
    exact scanTail_ends _ h

/-- A numeral begins with a digit. -/
theorem exists_decimal (n : Nat) : ∃ c digits, decimal n = c :: digits ∧ c.isDigit = true := by
  have hne : decimal n ≠ [] := Nat.toDigits_ne_nil
  obtain ⟨c, digits, hdecimal⟩ := List.exists_cons_of_ne_nil hne
  exact ⟨c, digits, hdecimal, isDigit_of_mem_decimal (hdecimal ▸ List.mem_cons_self)⟩

/-- **An integer of sixty-four bits is read back.** -/
theorem scan_integer {n : Int} (hn : InRange n) {rest : Symbols} (h : Ends rest) :
    ∃ l : Literal, scan (taken (signedDecimal n) ++ rest) = some (l, rest) ∧
      l.value? = some (.int n) := by
  have hvalue (k : Nat) : Nat.ofDigitChars 10 (decimal k) 0 = k := Nat.ofDigitChars_ten_toDigits
  have hsize : (UInt64.size : Int) = 18446744073709551616 := rfl
  have hhalf : ((UInt64.size / 2 : Nat) : Int) = 9223372036854775808 := rfl
  unfold InRange at hn
  cases n with
  | ofNat k =>
    have hfill : fill 0 (decimal k) = (k, []) := by
      rw [fill_eq, hvalue]
      rw [hvalue]
      have hk : (k : Int) < UInt64.size := hn.2
      omega
    refine ⟨⟨false, decimal k, none, none⟩, ?_, ?_⟩
    · obtain ⟨c, digits, hdecimal, hc⟩ := exists_decimal k
      have hscan := scanUnsigned_decimal false k h
      rw [hdecimal] at hscan
      show scan (taken (decimal k) ++ rest) = _
      rw [hdecimal]
      exact (scan_plain (ne_of_isDigit hc rfl) _).trans hscan
    · simp only [value?, hfill]
      rfl
  | negSucc k =>
    have hsmall : k + 1 ≤ UInt64.size / 2 := by
      rw [Int.negSucc_eq] at hn
      omega
    have hfill : fill 0 (decimal (k + 1)) = (k + 1, []) := by
      rw [fill_eq, hvalue]
      rw [hvalue]
      have hle : UInt64.size / 2 < UInt64.size := by decide
      omega
    refine ⟨⟨true, decimal (k + 1), none, none⟩, scanUnsigned_decimal true (k + 1) h, ?_⟩
    have hsign : ¬ (k + 1 = 0 ∨ UInt64.size / 2 < k + 1) := by omega
    simp only [value?, hfill, if_true, if_neg hsign]
    rfl

end Literal

/-! ## Strings -/

/-- The four digits of a control character are read back. -/
theorem numberEscape_control {c : Char} (h : c.toNat < 0x20) (rest : Symbols) :
    numberEscape (taken ['0', '0', hexDigit (c.toNat / 16), hexDigit (c.toNat % 16)] ++ rest)
      = some (c, rest) := by
  have hhigh := hexValue?_hexDigit (n := c.toNat / 16) (by omega)
  have hlow := hexValue?_hexDigit (n := c.toNat % 16) (Nat.mod_lt _ (by decide))
  have hzero : hexValue? '0' = some 0 := rfl
  have hvalue : c.toNat / 16 * 16 + c.toNat % 16 = c.toNat := by omega
  have hfour : hexFour
      (taken ['0', '0', hexDigit (c.toNat / 16), hexDigit (c.toNat % 16)] ++ rest)
      = some (c.toNat, rest) := by
    simp [hexFour, hhigh, hlow, hzero, hvalue]
  have hhalf : ¬ (0xD800 ≤ c.toNat ∧ c.toNat < 0xDC00) := by omega
  have hhalf' : ¬ (0xDC00 ≤ c.toNat ∧ c.toNat < 0xE000) := by omega
  simp only [numberEscape, hfour, Option.bind_eq_bind, Option.bind_some, if_neg hhalf,
    if_neg hhalf', Char.ofNat_toNat]
  rfl

/-- What follows a character is read as before. -/
theorem stringTail_plain (fuel : Nat) {c : Char} (hmark : c ≠ '"') (hescape : c ≠ '\\')
    (hcontrol : ¬ c.toNat < 0x20) (rest : Symbols) :
    stringTail (fuel + 1) (some c :: rest)
      = (stringTail fuel rest).map fun (cs, after) => (c :: cs, after) := by
  have hplain : ¬ (c = '\\' ∨ c.toNat < 0x20) := by simp [hescape, hcontrol]
  rw [stringTail, if_neg hplain]
  · cases stringTail fuel rest <;> rfl
  · exact hmark
  · exact fun _ _ heq => hescape heq
  · exact fun _ _ _ heq => hescape heq

/-- A letter behind a backslash is read as what it stands for. -/
theorem stringTail_letter (fuel : Nat) {c e : Char} (he : letterEscape? e = some c)
    (hu : e ≠ 'u') (rest : Symbols) :
    stringTail (fuel + 1) (some '\\' :: some e :: rest)
      = (stringTail fuel rest).map fun (cs, after) => (c :: cs, after) := by
  rw [stringTail, he]
  · cases stringTail fuel rest <;> rfl
  · exact hu

/-- A number behind a backslash is read as the character that has it. -/
theorem stringTail_number (fuel : Nat) {c : Char} {s rest : Symbols}
    (h : numberEscape s = some (c, rest)) :
    stringTail (fuel + 1) (some '\\' :: some 'u' :: s)
      = (stringTail fuel rest).map fun (cs, after) => (c :: cs, after) := by
  rw [stringTail, h]
  cases hrest : stringTail fuel rest <;> simp [hrest]

/-- **A character is read back** from what is written for it. -/
theorem stringTail_escapeChar (fuel : Nat) (c : Char) (rest : Symbols) :
    stringTail (fuel + 1) (taken (escapeChar c) ++ rest)
      = (stringTail fuel rest).map fun (cs, after) => (c :: cs, after) := by
  fun_cases escapeChar c with
  | case1 | case2 | case3 | case4 | case5 | case6 | case7 =>
    subst_vars
    exact stringTail_letter fuel rfl (by decide) rest
  | case8 _ _ _ _ _ _ _ hcontrol =>
    exact stringTail_number fuel (numberEscape_control hcontrol rest)
  | case9 hmark hescape _ _ _ _ _ hcontrol =>
    exact stringTail_plain fuel hmark hescape hcontrol rest

/-- The characters of a string are read back up to its mark. -/
theorem stringTail_flatMap {cs : List Char} {fuel : Nat} (h : cs.length < fuel) (rest : Symbols) :
    stringTail fuel (taken (cs.flatMap escapeChar) ++ some '"' :: rest) = some (cs, rest) := by
  obtain ⟨fuel, rfl⟩ : ∃ n, fuel = n + 1 := ⟨fuel - 1, by omega⟩
  induction cs generalizing fuel with
  | nil => rfl
  | cons c cs ih =>
    rw [List.length_cons] at h
    obtain ⟨fuel, rfl⟩ : ∃ n, fuel = n + 1 := ⟨fuel - 1, by omega⟩
    rw [List.flatMap_cons, taken_append, List.append_assoc, stringTail_escapeChar,
      ih fuel (by omega)]
    rfl

theorem length_escapeChar_pos (c : Char) : 0 < (escapeChar c).length := by
  fun_cases escapeChar c <;> simp

/-- **A string is read back.** -/
theorem string_quote (s : String) (rest : Symbols) :
    string (taken (quote s) ++ rest) = some (s, rest) := by
  have hlength : s.toList.length ≤ (s.toList.flatMap escapeChar).length := by
    induction s.toList with
    | nil => exact Nat.le_refl _
    | cons c cs ih =>
      have hpos := length_escapeChar_pos c
      rw [List.flatMap_cons, List.length_append, List.length_cons]
      omega
  have hquote : taken (quote s) ++ rest
      = some '"' :: (taken (s.toList.flatMap escapeChar) ++ some '"' :: rest) := by
    simp [quote]
  have hfuel : s.toList.length
      < (taken (s.toList.flatMap escapeChar) ++ some '"' :: rest).length + 1 := by
    rw [List.length_append, List.length_map]
    omega
  rw [hquote, string, stringTail_flatMap hfuel]
  simp

end DeviceProvisioning.Json
