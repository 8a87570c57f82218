import DeviceProvisioning.Proofs.Number.Decimal
import DeviceProvisioning.Time.Timestamp
import Mathlib.Data.Option.Basic

/-!
# Instants, written and read

What a reader gives is an instant of the calendar (`Timestamp.valid_of_parse?`): its offset may have
carried it into the day before or after, but not beyond the ends of the calendar.  Such an instant
is written with numbers that fill their places, and the reader takes at most so many digits for a
place; only a year with a sign and a fraction end where the digits end.  So it is read back from its
written form (`Timestamp.parse?_render`), which is one of the many accepted ones.
-/

namespace DeviceProvisioning.Time

open DeviceProvisioning.Text DeviceProvisioning.Number

/-! ## Days -/

namespace Date

/-- A day that exists, clause by clause. -/
theorem isValid_iff {d : Date} : d.isValid = true ↔
    (minYear ≤ d.year ∧ d.year ≤ maxYear) ∧ (1 ≤ d.month ∧ d.month ≤ 12) ∧
      1 ≤ d.day ∧ d.day ≤ daysInMonth d.year d.month := by
  simp [isValid, and_assoc]

theorem daysInMonth_bounds (year : Int) (month : Nat) :
    28 ≤ daysInMonth year month ∧ daysInMonth year month ≤ 31 := by
  unfold daysInMonth
  split
  · split <;> decide
  · split <;> decide

/-- The day after a day exists. -/
theorem isValid_of_next? {d e : Date} (hd : d.isValid = true) (h : d.next? = some e) :
    e.isValid = true := by
  obtain ⟨hyear, hmonth, hday⟩ := isValid_iff.1 hd
  rw [next?] at h
  split at h
  · obtain rfl := Option.some.inj h
    rw [isValid_iff]
    dsimp only
    omega
  · split at h
    · obtain rfl := Option.some.inj h
      have hdays := (daysInMonth_bounds d.year (d.month + 1)).1
      rw [isValid_iff]
      dsimp only
      omega
    · split at h
      · obtain rfl := Option.some.inj h
        have hdays := (daysInMonth_bounds (d.year + 1) 1).1
        rw [isValid_iff]
        dsimp only
        omega
      · cases h

/-- The day before a day exists. -/
theorem isValid_of_previous? {d e : Date} (hd : d.isValid = true) (h : d.previous? = some e) :
    e.isValid = true := by
  obtain ⟨hyear, hmonth, hday⟩ := isValid_iff.1 hd
  rw [previous?] at h
  split at h
  · obtain rfl := Option.some.inj h
    rw [isValid_iff]
    dsimp only
    omega
  · split at h
    · obtain rfl := Option.some.inj h
      have hdays := (daysInMonth_bounds d.year (d.month - 1)).1
      rw [isValid_iff]
      dsimp only
      omega
    · split at h
      · obtain rfl := Option.some.inj h
        have hlast : daysInMonth (d.year - 1) 12 = 31 := rfl
        rw [isValid_iff]
        dsimp only
        omega
      · cases h

end Date

namespace Timestamp

/-- **An instant of the calendar**, with the leap seconds. -/
structure Valid (t : Timestamp) : Prop where
  date : t.date.isValid = true
  hour : t.hour < 24
  minute : t.minute < 60
  second : t.second ≤ 60
  nanos : t.nanos < 10 ^ 9

/-! ## What is read -/

/-- Digits are taken as long as there are any and there is room. -/
theorem exists_digits {most n : Nat} {cs rest : List Char} (h : number most cs = some (n, rest)) :
    ∃ digits, digits ≠ [] ∧ digits.length ≤ most ∧ cs = digits ++ rest ∧
      (∀ c ∈ digits, c.isDigit = true) ∧ n = Nat.ofDigitChars 10 digits 0 := by
  rw [number] at h
  split at h
  · cases h
  · rename_i hne
    obtain ⟨rfl, rfl⟩ := Prod.mk.inj (Option.some.inj h)
    have htaken : (cs.take most).takeWhile Char.isDigit <+: cs :=
      (List.takeWhile_prefix _).trans (List.take_prefix _ _)
    obtain ⟨after, hafter⟩ := htaken
    refine ⟨_, hne, ?_, ?_, List.all_eq_true.1 List.all_takeWhile, rfl⟩
    · exact Nat.le_trans (List.takeWhile_prefix _).length_le (List.length_take_le _ _)
    · have hdrop := congrArg (List.drop ((cs.take most).takeWhile Char.isDigit).length) hafter
      rw [List.drop_left] at hdrop
      rw [← hdrop, hafter]

/-- A fraction is less than a second. -/
theorem lt_of_readFraction {nanos : Nat} {cs rest : List Char}
    (h : readFraction cs = some (nanos, rest)) : nanos < 10 ^ 9 := by
  rw [readFraction.eq_def] at h
  split at h
  · obtain ⟨⟨n, after⟩, hnumber, h⟩ := Option.bind_eq_some_iff.1 h
    obtain ⟨rfl, -⟩ := Prod.mk.inj (Option.some.inj h)
    obtain ⟨digits, -, hmost, rfl, hdigits, rfl⟩ := exists_digits hnumber
    have hlt := ofDigitChars_lt hdigits
    have hplaces : (digits ++ after).length - after.length = digits.length := by simp
    rw [hplaces]
    calc Nat.ofDigitChars 10 digits 0 * 10 ^ (9 - digits.length)
        < 10 ^ digits.length * 10 ^ (9 - digits.length) :=
          Nat.mul_lt_mul_of_pos_right hlt (Nat.pow_pos (by decide))
      _ = 10 ^ 9 := by rw [← Nat.pow_add]; congr 1; omega
  · obtain ⟨rfl, -⟩ := Prod.mk.inj (Option.some.inj h)
    decide

/-- What a clock at an offset shows is an instant of the calendar. -/
theorem valid_of_ofLocal? {date : Date} {hour minute second nanos : Nat} {offset : Int}
    {t : Timestamp} (hdate : date.isValid = true) (hsecond : second ≤ 60) (hnanos : nanos < 10 ^ 9)
    (h : ofLocal? date hour minute second nanos offset = some t) : t.Valid := by
  have hvalid {day : Date} (hday : day.isValid = true) (minutes : Int)
      (h : some (Timestamp.mk day ((minutes % 1440).toNat / 60) ((minutes % 1440).toNat % 60)
        second nanos) = some t) : t.Valid := by
    obtain rfl := Option.some.inj h
    exact ⟨hday, by show _ / 60 < 24; omega, by show _ % 60 < 60; omega, hsecond, hnanos⟩
  rw [ofLocal?] at h
  dsimp only at h
  split at h
  · obtain ⟨day, hday, h⟩ := Option.bind_eq_some_iff.1 h
    exact hvalid (Date.isValid_of_previous? hdate hday) _ h
  · split at h
    · obtain ⟨day, hday, h⟩ := Option.bind_eq_some_iff.1 h
      exact hvalid (Date.isValid_of_next? hdate hday) _ h
    · exact hvalid hdate _ h

/-- **What is read is an instant of the calendar.** -/
theorem valid_of_parse? {text : String} {t : Timestamp} (h : parse? text = some t) : t.Valid := by
  rw [parse?, ofChars?] at h
  obtain ⟨⟨year, _⟩, -, h⟩ := Option.bind_eq_some_iff.1 h
  obtain ⟨_, -, h⟩ := Option.bind_eq_some_iff.1 h
  obtain ⟨⟨month, _⟩, -, h⟩ := Option.bind_eq_some_iff.1 h
  obtain ⟨_, -, h⟩ := Option.bind_eq_some_iff.1 h
  obtain ⟨⟨day, _⟩, -, h⟩ := Option.bind_eq_some_iff.1 h
  dsimp only at h
  split at h
  case h_4 => cases h
  -- whatever stands between the date and the time
  all_goals
    obtain ⟨_, -, h⟩ := Option.bind_eq_some_iff.1 h
    obtain ⟨⟨hour, _⟩, -, h⟩ := Option.bind_eq_some_iff.1 h
    obtain ⟨_, -, h⟩ := Option.bind_eq_some_iff.1 h
    obtain ⟨⟨minute, _⟩, -, h⟩ := Option.bind_eq_some_iff.1 h
    obtain ⟨_, -, h⟩ := Option.bind_eq_some_iff.1 h
    obtain ⟨⟨second, _⟩, -, h⟩ := Option.bind_eq_some_iff.1 h
    obtain ⟨⟨nanos, _⟩, hfraction, h⟩ := Option.bind_eq_some_iff.1 h
    obtain ⟨⟨offset, _⟩, -, h⟩ := Option.bind_eq_some_iff.1 h
    dsimp only at h
    split at h
    · rename_i hchecked
      obtain ⟨-, hdate, -, -, hsecond, -⟩ := hchecked
      exact valid_of_ofLocal? hdate hsecond (lt_of_readFraction hfraction) h
    · cases h

/-! ## What is written -/

/-- A digit is not blank. -/
theorem not_isBlank_of_isDigit {c : Char} (h : c.isDigit = true) : isBlank c = false := by
  obtain ⟨hlow, hhigh⟩ := isDigit_iff.1 h
  simp only [isBlank, Bool.or_eq_false_iff, Bool.and_eq_false_iff, decide_eq_false_iff_not,
    beq_eq_false_iff_ne]
  omega

/-- **Digits are read as the number they stand for**, if they fill the place or something else comes
next. -/
theorem number_digits {digits rest : List Char} {most : Nat} (hne : digits ≠ [])
    (hdigits : ∀ c ∈ digits, c.isDigit = true) (hmost : digits.length ≤ most)
    (hrest : digits.length = most ∨ rest.head?.all (!·.isDigit) = true) :
    number most (digits ++ rest) = some (Nat.ofDigitChars 10 digits 0, rest) := by
  have htail : (rest.take (most - digits.length)).takeWhile Char.isDigit = [] := by
    rcases hrest with hfull | hother
    · rw [hfull, Nat.sub_self, List.take_zero, List.takeWhile_nil]
    · cases rest with
      | nil => rw [List.take_nil, List.takeWhile_nil]
      | cons c rest =>
        have hc : c.isDigit = false := by simpa using hother
        cases most - digits.length with
        | zero => rfl
        | succ room => rw [List.take_succ_cons, List.takeWhile_cons_of_neg (by simp [hc])]
  have htake : ((digits ++ rest).take most).takeWhile Char.isDigit = digits := by
    rw [List.take_append, List.take_of_length_le hmost,
      List.takeWhile_append_of_pos hdigits, htail, List.append_nil]
  rw [number, htake]
  split
  · exact absurd rfl hne
  · rw [List.drop_left]

/-- A place that is filled is read. -/
theorem number_padded {width n : Nat} (hwidth : 0 < width) (h : n < 10 ^ width)
    (rest : List Char) : number width (padded width n ++ rest) = some (n, rest) := by
  have hlength := length_padded hwidth h
  rw [number_digits (padded_ne_nil _ _) (fun _ => isDigit_of_mem_padded) (Nat.le_of_eq hlength)
    (.inl hlength), ofDigitChars_padded]

/-- Nothing blank stands in front of digits. -/
theorem trimStart_digits {digits : List Char} (hne : digits ≠ [])
    (hdigits : ∀ c ∈ digits, c.isDigit = true) (rest : List Char) :
    trimStart (digits ++ rest) = digits ++ rest := by
  cases digits with
  | nil => exact absurd rfl hne
  | cons c digits =>
    have hc := not_isBlank_of_isDigit (hdigits c List.mem_cons_self)
    rw [trimStart, List.cons_append, List.dropWhile_cons_of_neg (by simp [hc])]

theorem readPair_padded {n : Nat} (h : n < 100) (rest : List Char) :
    readPair (padded 2 n ++ rest) = some (n, rest) := by
  rw [readPair, trimStart_digits (padded_ne_nil _ _) fun _ => isDigit_of_mem_padded]
  exact number_padded (by decide) h rest

/-- A year with a sign ends where its digits end. -/
theorem longNumber_padded (width n : Nat) (rest : List Char) :
    longNumber (padded width n ++ '-' :: rest) = some (n, '-' :: rest) := by
  have hroom : (padded width n).length ≤ (padded width n ++ '-' :: rest).length := by
    rw [List.length_append]
    exact Nat.le_add_right _ _
  rw [longNumber, number_digits (padded_ne_nil width n) (fun _ => isDigit_of_mem_padded) hroom
    (.inr rfl), ofDigitChars_padded]

/-- **A year is read back.** -/
theorem readYear_yearText (year : Int) (rest : List Char) :
    readYear (yearText year ++ '-' :: rest) = some (year, '-' :: rest) := by
  unfold yearText
  split
  · rename_i hfour
    obtain ⟨n, rfl⟩ := Int.eq_ofNat_of_zero_le hfour.1
    have hn : n < 10 ^ 4 := by omega
    have hdigits : ∀ c ∈ padded 4 n, c.isDigit = true := fun _ => isDigit_of_mem_padded
    obtain ⟨c, digits, hpadded⟩ := List.exists_cons_of_ne_nil (padded_ne_nil 4 n)
    have hc : c.isDigit = true := hdigits c (hpadded ▸ List.mem_cons_self)
    rw [Int.toNat_natCast, readYear, trimStart_digits (padded_ne_nil _ _) hdigits]
    split
    · rename_i heq
      rw [hpadded] at heq
      exact absurd (List.cons.inj heq).1 (ne_of_isDigit hc rfl)
    · rename_i heq
      rw [hpadded] at heq
      exact absurd (List.cons.inj heq).1 (ne_of_isDigit hc rfl)
    · rw [number_padded (by decide) hn]
      rfl
  · rename_i hsigned
    split
    · rename_i hnegative
      show (longNumber (padded 4 year.natAbs ++ '-' :: rest)).map _ = _
      rw [longNumber_padded]
      simp only [Option.map_some, Option.some.injEq, Prod.mk.injEq, and_true]
      omega
    · rename_i hpositive
      show (longNumber (padded 4 year.natAbs ++ '-' :: rest)).map _ = _
      rw [longNumber_padded]
      simp only [Option.map_some, Option.some.injEq, Prod.mk.injEq, and_true]
      omega

/-- A fraction of so many digits counts as so many nanoseconds. -/
theorem readFraction_padded {width n : Nat} (hwidth : 0 < width) (hwidth' : width ≤ 9)
    (h : n < 10 ^ width) :
    readFraction ('.' :: padded width n ++ ['Z']) = some (n * 10 ^ (9 - width), ['Z']) := by
  have hlength := length_padded hwidth h
  have hread : number 9 (padded width n ++ ['Z']) = some (n, ['Z']) := by
    rw [number_digits (padded_ne_nil _ _) (fun _ => isDigit_of_mem_padded) (by omega) (.inr rfl),
      ofDigitChars_padded]
  show (number 9 (padded width n ++ ['Z'])).bind _ = _
  rw [hread]
  simp [hlength]

/-- **A fraction is read back.** -/
theorem readFraction_fractionText {nanos : Nat} (h : nanos < 10 ^ 9) :
    readFraction (fractionText nanos ++ ['Z']) = some (nanos, ['Z']) := by
  unfold fractionText
  split
  · rename_i hzero
    rw [hzero]
    rfl
  · split
    · rw [readFraction_padded (by decide) (by decide) (by omega)]
      congr 2
      omega
    · split
      · rw [readFraction_padded (by decide) (by decide) (by omega)]
        congr 2
        omega
      · rw [readFraction_padded (by decide) (by decide) h]
        simp

/-- The mark between two numbers is passed. -/
theorem readMark_front (mark : Char) (h : isBlank mark = false) (rest : List Char) :
    readMark mark (trimStart (mark :: rest)) = some rest := by
  rw [trimStart, List.dropWhile_cons_of_neg (by simp [h]), readMark, if_pos rfl]

/-- An instant in universal time is what its own clock shows. -/
theorem ofLocal?_utc {t : Timestamp} (h : t.Valid) :
    ofLocal? t.date t.hour t.minute t.second t.nanos 0 = some t := by
  have hhour := h.hour
  have hminute := h.minute
  obtain ⟨date, hour, minute, second, nanos⟩ := t
  dsimp only at hhour hminute
  simp only [ofLocal?]
  rw [if_neg (by omega), if_neg (by omega)]
  have hday : (((hour * 60 + minute : Nat) : Int) - 0) % 1440 = (hour * 60 + minute : Nat) := by
    omega
  rw [hday, Int.toNat_natCast]
  show some (Timestamp.mk date ((hour * 60 + minute) / 60) ((hour * 60 + minute) % 60) second nanos)
    = _
  rw [show (hour * 60 + minute) / 60 = hour by omega,
    show (hour * 60 + minute) % 60 = minute by omega]

/-- **An instant is read back from its written form.** -/
theorem parse?_render {t : Timestamp} (h : t.Valid) : parse? t.render = some t := by
  obtain ⟨-, hmonth, hday⟩ := Date.isValid_iff.1 h.date
  have hdays := (Date.daysInMonth_bounds t.date.year t.date.month).2
  have hhour := h.hour
  have hminute := h.minute
  have hsecond := h.second
  have htext : t.chars = yearText t.date.year ++ '-' :: (padded 2 t.date.month ++
      '-' :: (padded 2 t.date.day ++ 'T' :: (padded 2 t.hour ++ ':' :: (padded 2 t.minute ++
        ':' :: (padded 2 t.second ++ (fractionText t.nanos ++ ['Z'])))))) := by
    simp [chars]
  have dash := readMark_front '-' rfl
  have colon := readMark_front ':' rfl
  rw [parse?, render, String.toList_ofList, htext, ofChars?]
  refine Option.bind_eq_some_iff.2 ⟨_, readYear_yearText _ _, ?_⟩
  refine Option.bind_eq_some_iff.2 ⟨_, dash _, ?_⟩
  refine Option.bind_eq_some_iff.2 ⟨_, readPair_padded (by omega) _, ?_⟩
  refine Option.bind_eq_some_iff.2 ⟨_, dash _, ?_⟩
  refine Option.bind_eq_some_iff.2 ⟨_, readPair_padded (by omega) _, ?_⟩
  refine Option.bind_eq_some_iff.2 ⟨_, rfl, ?_⟩
  refine Option.bind_eq_some_iff.2 ⟨_, readPair_padded (by omega) _, ?_⟩
  refine Option.bind_eq_some_iff.2 ⟨_, colon _, ?_⟩
  refine Option.bind_eq_some_iff.2 ⟨_, readPair_padded (by omega) _, ?_⟩
  refine Option.bind_eq_some_iff.2 ⟨_, colon _, ?_⟩
  refine Option.bind_eq_some_iff.2 ⟨_, readPair_padded (by omega) _, ?_⟩
  refine Option.bind_eq_some_iff.2 ⟨_, readFraction_fractionText h.nanos, ?_⟩
  refine Option.bind_eq_some_iff.2 ⟨(0, []), rfl, ?_⟩
  have hchecked : trimStart [] = [] ∧ t.date.isValid = true ∧ t.hour < 24 ∧ t.minute < 60 ∧
      t.second ≤ 60 ∧ -1440 < (0 : Int) ∧ (0 : Int) < 1440 :=
    ⟨rfl, h.date, hhour, hminute, hsecond, by decide, by decide⟩
  exact (if_pos hchecked).trans (ofLocal?_utc h)

end Timestamp
end DeviceProvisioning.Time
