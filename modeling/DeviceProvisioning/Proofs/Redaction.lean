import DeviceProvisioning.Redaction
import DeviceProvisioning.Text.Split
import Mathlib.Data.List.Forall2
import Mathlib.Data.List.TakeWhile

/-!
# What redaction hides

A message is scanned from the left, and a secret that begins further left may swallow the beginning
of another, so that what becomes of a secret depends on all that stands in front of it.  It does not
depend on its value.  Two facts carry the proof.

A scan never looks across a separator: neither a label nor the value behind it holds one, so the
text in front of a separator and the text behind it are redacted each by itself (`sweep_append`).

Between two separators there is at most one secret, the leftmost: its value reaches as far as the
text does (`sweep_secret`).  If a label stands in such a text, with a value up to its end, then that
label or one in front of it is the leftmost, and in either case the value is gone and nothing of it
has been looked at but that it is there (`exists_sweep_token`).

`fold` says which characters the scan takes for one another; `IsCaseOf` says it letter by letter,
and `fold_eq_iff` that they agree.
-/

namespace DeviceProvisioning.Redaction

open DeviceProvisioning.Text

/-! ## Keywords -/

/-- **The characters that are the same letter** but for their case: a lower-case letter of ASCII,
the capital letter, the long s and the Kelvin sign. -/
def IsCaseOf (letter c : Char) : Prop :=
  c = letter ∨ c = letter.toUpper ∨ letter = 's' ∧ c = '\u017F' ∨ letter = 'k' ∧ c = '\u212A'

/-- **A keyword,** in any spelling. -/
def IsKeyword (spelt : List Char) : Prop :=
  ∃ word ∈ keywords, List.Forall₂ IsCaseOf word spelt

theorem toNat_toLower (c : Char) :
    c.toLower.toNat = if 65 ≤ c.toNat ∧ c.toNat ≤ 90 then c.toNat + 32 else c.toNat := by
  unfold Char.toLower
  split
  case isTrue h =>
    have hrange : 65 ≤ c.toNat ∧ c.toNat ≤ 90 := h
    rw [if_pos hrange]
    show (c.val + 32).toNat = c.val.toNat + 32
    rw [UInt32.toNat_add]
    exact Nat.mod_eq_of_lt (by show c.toNat + 32 < _; omega)
  case isFalse h =>
    have hrange : ¬ (65 ≤ c.toNat ∧ c.toNat ≤ 90) := h
    rw [if_neg hrange]

theorem toNat_toUpper (c : Char) :
    c.toUpper.toNat = if 97 ≤ c.toNat ∧ c.toNat ≤ 122 then c.toNat - 32 else c.toNat := by
  unfold Char.toUpper
  split
  case isTrue h =>
    have hrange : 97 ≤ c.toNat ∧ c.toNat ≤ 122 := h
    rw [if_pos hrange]
    show (c.val + 4294967264).toNat = c.val.toNat - 32
    rw [UInt32.toNat_add]
    show (c.toNat + 4294967264) % 4294967296 = c.toNat - 32
    omega
  case isFalse h =>
    have hrange : ¬ (97 ≤ c.toNat ∧ c.toNat ≤ 122) := h
    rw [if_neg hrange]

theorem toNat_of_isLower {letter : Char} (h : letter.isLower = true) :
    97 ≤ letter.toNat ∧ letter.toNat ≤ 122 := by
  obtain ⟨hlow, hhigh⟩ := Bool.and_eq_true_iff.1 h
  exact ⟨UInt32.le_iff_toNat_le.1 (of_decide_eq_true hlow),
    UInt32.le_iff_toNat_le.1 (of_decide_eq_true hhigh)⟩

/-- The scan folds exactly the cases of a letter to it. -/
theorem fold_eq_iff {letter c : Char} (h : letter.isLower = true) :
    fold c = letter ↔ IsCaseOf letter c := by
  have hrange := toNat_of_isLower h
  have hlong : '\u017F'.toNat = 383 := rfl
  have hkelvin : '\u212A'.toNat = 8490 := rfl
  have hs : 's'.toNat = 115 := rfl
  have hk : 'k'.toNat = 107 := rfl
  unfold fold IsCaseOf
  simp only [← Char.toNat_inj, apply_ite Char.toNat, toNat_toLower, toNat_toUpper, hlong, hkelvin,
    hs, hk, if_pos hrange]
  by_cases hc : c.toNat = 383
  · rw [if_pos hc]
    omega
  by_cases hc' : c.toNat = 8490
  · rw [if_neg hc, if_pos hc']
    omega
  rw [if_neg hc, if_neg hc']
  by_cases hupper : 65 ≤ c.toNat ∧ c.toNat ≤ 90
  · rw [if_pos hupper]
    omega
  · rw [if_neg hupper]
    omega

/-- The keywords are written in lower case. -/
theorem isLower_of_mem_keyword {word : List Char} (h : word ∈ keywords) :
    ∀ letter ∈ word, letter.isLower = true := by
  have hlower : (keywords.all fun word => word.all Char.isLower) = true := by decide +kernel
  exact List.all_eq_true.1 (List.all_eq_true.1 hlower word h)

/-- **A spelling of a keyword folds to the keyword.** -/
theorem isKeyword_iff {spelt : List Char} : IsKeyword spelt ↔ spelt.map fold ∈ keywords := by
  have hfold : ∀ word : List Char, (∀ letter ∈ word, letter.isLower = true) →
      (List.Forall₂ IsCaseOf word spelt ↔ spelt.map fold = word) := by
    intro word hword
    induction spelt generalizing word with
    | nil => cases word <;> simp
    | cons c spelt ih =>
      cases word with
      | nil => simp
      | cons letter word =>
        rw [List.forall_mem_cons] at hword
        rw [List.forall₂_cons, ih word hword.2, List.map_cons, List.cons.injEq,
          fold_eq_iff hword.1]
  constructor
  · rintro ⟨word, hword, hspelt⟩
    rw [(hfold word (isLower_of_mem_keyword hword)).1 hspelt]
    exact hword
  · intro hword
    exact ⟨_, hword, (hfold _ (isLower_of_mem_keyword hword)).2 rfl⟩

/-- The case of a letter is no equals sign, and it separates nothing. -/
theorem IsCaseOf.plain {letter c : Char} (h : IsCaseOf letter c) (hletter : letter.isLower = true) :
    c ≠ '=' ∧ isSeparator c = false := by
  have hrange := toNat_of_isLower hletter
  have hc : 65 ≤ c.toNat ∧ c.toNat ≤ 122 ∨ c.toNat = 383 ∨ c.toNat = 8490 := by
    rcases h with rfl | rfl | ⟨-, rfl⟩ | ⟨-, rfl⟩
    · omega
    · rw [toNat_toUpper, if_pos hrange]
      omega
    · exact .inr (.inl rfl)
    · exact .inr (.inr rfl)
  have hne {d : Char} {n : Nat} (hd : d.toNat = n) (hn : c.toNat ≠ n) : c ≠ d := by
    rintro rfl
    exact hn hd
  have hblank : isBlank c = false := by
    simp only [isBlank, Bool.or_eq_false_iff, Bool.and_eq_false_iff, decide_eq_false_iff_not,
      beq_eq_false_iff_ne]
    omega
  refine ⟨hne (n := 61) rfl (by omega), ?_⟩
  rw [isSeparator, hblank, Bool.or_false]
  exact beq_false_of_ne (hne (n := 38) rfl (by omega))

/-- No equals sign and no separator stands in a keyword. -/
theorem IsKeyword.plain {spelt : List Char} (h : IsKeyword spelt) {c : Char} (hc : c ∈ spelt) :
    c ≠ '=' ∧ isSeparator c = false := by
  have hletter := isLower_of_mem_keyword (isKeyword_iff.1 h) (fold c) (List.mem_map_of_mem hc)
  exact IsCaseOf.plain ((fold_eq_iff hletter).1 rfl) hletter

/-! ## Labels -/

/-- **What announces a secret**: a keyword with an equals sign after it. -/
def IsLabel (label : List Char) : Prop :=
  ∃ spelt, IsKeyword spelt ∧ label = spelt ++ ['=']

/-- **What can be the value of a secret**: characters, but no separator. -/
def IsValue (value : List Char) : Prop :=
  value ≠ [] ∧ ∀ c ∈ value, isSeparator c = false

instance {value : List Char} : Decidable (IsValue value) :=
  decidable_of_iff (value ≠ [] ∧ (value.all fun c => !isSeparator c) = true) (by simp [IsValue])

/-- **What can follow a value**: nothing, or a separator. -/
def Stops (rest : List Char) : Prop :=
  ∀ c ∈ rest.head?, isSeparator c = true

theorem IsLabel.ne_nil {label : List Char} (h : IsLabel label) : label ≠ [] := by
  obtain ⟨spelt, -, rfl⟩ := h
  simp

/-- No separator stands in a label. -/
theorem IsLabel.plain {label : List Char} (h : IsLabel label) :
    ∀ c ∈ label, isSeparator c = false := by
  obtain ⟨spelt, hspelt, rfl⟩ := h
  intro c hc
  rcases List.mem_append.1 hc with hc | hc
  · exact (hspelt.plain hc).2
  · rw [List.mem_singleton.1 hc]
    rfl

/-- **A label ends at the first equals sign,** so that no text has two of them in front. -/
theorem IsLabel.unique {label label' rest rest' : List Char} (h : IsLabel label)
    (h' : IsLabel label') (heq : label ++ rest = label' ++ rest') :
    label = label' ∧ rest = rest' := by
  obtain ⟨spelt, hspelt, rfl⟩ := h
  obtain ⟨spelt', hspelt', rfl⟩ := h'
  have hcut : cutAt '=' (spelt ++ '=' :: rest) = some (spelt, rest) :=
    cutAt_eq_some_iff.2 ⟨rfl, fun hmem => (hspelt.plain hmem).1 rfl⟩
  have hcut' : cutAt '=' (spelt' ++ '=' :: rest') = some (spelt', rest') :=
    cutAt_eq_some_iff.2 ⟨rfl, fun hmem => (hspelt'.plain hmem).1 rfl⟩
  have hsame : spelt ++ '=' :: rest = spelt' ++ '=' :: rest' := by simpa using heq
  rw [hsame, hcut'] at hcut
  obtain ⟨rfl, rfl⟩ := Prod.mk.inj (Option.some.inj hcut)
  exact ⟨rfl, rfl⟩

theorem spelling?_eq_some_iff {word cs spelt rest : List Char} :
    spelling? word cs = some (spelt, rest) ↔ cs = spelt ++ rest ∧ spelt.map fold = word := by
  induction word generalizing cs spelt with
  | nil =>
    rw [spelling?, Option.some.injEq, Prod.mk.injEq, List.map_eq_nil_iff]
    constructor
    · rintro ⟨rfl, rfl⟩
      exact ⟨rfl, rfl⟩
    · rintro ⟨rfl, rfl⟩
      exact ⟨rfl, rfl⟩
  | cons letter word ih =>
    cases cs with
    | nil => cases spelt <;> simp [spelling?]
    | cons c cs =>
      rw [spelling?]
      by_cases hc : fold c = letter
      · rw [if_pos hc, Option.map_eq_some_iff]
        constructor
        · rintro ⟨⟨spelt', rest'⟩, hspelt, heq⟩
          obtain ⟨rfl, rfl⟩ := Prod.mk.inj heq
          obtain ⟨rfl, rfl⟩ := ih.1 hspelt
          exact ⟨rfl, by rw [List.map_cons, hc]⟩
        · rintro ⟨heq, hfold⟩
          cases spelt with
          | nil => cases hfold
          | cons d spelt =>
            obtain ⟨rfl, rfl⟩ := List.cons.inj heq
            exact ⟨(spelt, rest), ih.2 ⟨rfl, (List.cons.inj hfold).2⟩, rfl⟩
      · rw [if_neg hc]
        refine iff_of_false nofun ?_
        rintro ⟨heq, hfold⟩
        cases spelt with
        | nil => cases hfold
        | cons d spelt =>
          obtain ⟨rfl, -⟩ := List.cons.inj heq
          exact hc (List.cons.inj hfold).1

/-- **Where a secret begins**: a label stands there, and behind it a character that is no
separator. -/
theorem secret?_eq_some_iff {cs label value : List Char} :
    secret? cs = some (label, value) ↔
      cs = label ++ value ∧ IsLabel label ∧
        ∃ v rest, value = v :: rest ∧ isSeparator v = false := by
  have sound : ∀ {label value}, secret? cs = some (label, value) →
      cs = label ++ value ∧ IsLabel label ∧
        ∃ v rest, value = v :: rest ∧ isSeparator v = false := by
    intro label value h
    obtain ⟨word, hword, hfound⟩ := List.exists_of_findSome?_eq_some h
    split at hfound
    · rename_i spelt v rest hspelt
      obtain ⟨rfl, rfl⟩ := spelling?_eq_some_iff.1 hspelt
      split at hfound
      · cases hfound
      · rename_i hv
        obtain ⟨rfl, rfl⟩ := Prod.mk.inj (Option.some.inj hfound)
        exact ⟨by simp, ⟨spelt, isKeyword_iff.2 hword, rfl⟩, v, rest, rfl, by simpa using hv⟩
    · cases hfound
  refine ⟨sound, ?_⟩
  rintro ⟨rfl, hlabel, v, rest, rfl, hv⟩
  -- some keyword is found, and no other label stands there
  have hsome : (secret? (label ++ v :: rest)).isSome := by
    obtain ⟨spelt, hspelt, rfl⟩ := hlabel
    have hword : spelling? (spelt.map fold) (spelt ++ ['='] ++ v :: rest)
        = some (spelt, '=' :: v :: rest) := spelling?_eq_some_iff.2 ⟨by simp, rfl⟩
    rw [secret?, List.findSome?_isSome_iff]
    refine ⟨_, isKeyword_iff.1 hspelt, ?_⟩
    rw [hword]
    simp [hv]
  obtain ⟨⟨label', value'⟩, hfound⟩ := Option.isSome_iff_exists.1 hsome
  obtain ⟨heq, hlabel', -⟩ := sound hfound
  obtain ⟨rfl, rfl⟩ := hlabel.unique hlabel' heq
  exact hfound

/-- What follows a secret is shorter than the text in which the secret begins. -/
theorem length_dropWhile_lt {cs label value : List Char} (h : secret? cs = some (label, value)) :
    (value.dropWhile (!isSeparator ·)).length < cs.length := by
  obtain ⟨rfl, hlabel, -⟩ := secret?_eq_some_iff.1 h
  have hpos := List.length_pos_iff.2 hlabel.ne_nil
  have hrest := (List.dropWhile_sublist (!isSeparator ·) (l := value)).length_le
  rw [List.length_append]
  omega

/-! ## The scan -/

/-- **A text with its secrets redacted.** -/
def sweep (cs : List Char) : List Char :=
  scan cs.length cs

/-- A bound on the length of a text is enough for the scan, whatever the bound. -/
theorem scan_eq {n : Nat} {cs : List Char} (h : cs.length ≤ n) : scan n cs = sweep cs := by
  have key : ∀ n m cs, cs.length ≤ n → cs.length ≤ m → scan n cs = scan m cs := by
    intro n
    induction n with
    | zero =>
      intro m cs hn _
      obtain rfl := List.length_eq_zero_iff.1 (Nat.le_zero.1 hn)
      cases m <;> rfl
    | succ n ih =>
      intro m cs hn hm
      cases cs with
      | nil => cases m <;> rfl
      | cons c cs =>
        cases m with
        | zero => exact absurd hm (Nat.not_succ_le_zero _)
        | succ m =>
          simp only [List.length_cons, Nat.add_le_add_iff_right] at hn hm
          unfold scan
          split
          · rename_i label value hsecret
            have hshort := length_dropWhile_lt hsecret
            rw [List.length_cons] at hshort
            rw [ih m _ (by omega) (by omega)]
          · rw [ih m cs hn hm]
  exact key n cs.length cs h (Nat.le_refl _)

theorem sweep_nil : sweep [] = [] := rfl

/-- A character at which no secret begins stays. -/
theorem sweep_cons {c : Char} {cs : List Char} (h : secret? (c :: cs) = none) :
    sweep (c :: cs) = c :: sweep cs := by
  rw [sweep, List.length_cons, scan, h]
  rfl

/-- **The value of a secret is replaced,** and the scan goes on behind it. -/
theorem sweep_secret {cs label value : List Char} (h : secret? cs = some (label, value)) :
    sweep cs = label ++ stars ++ sweep (value.dropWhile (!isSeparator ·)) := by
  have hshort := length_dropWhile_lt h
  cases cs with
  | nil => cases hshort
  | cons c cs =>
    rw [sweep, List.length_cons, scan, h]
    dsimp only
    rw [scan_eq (Nat.le_of_lt_succ hshort)]

/-- A separator stays. -/
theorem sweep_separator {c : Char} (h : isSeparator c = true) (cs : List Char) :
    sweep (c :: cs) = c :: sweep cs := by
  refine sweep_cons (Option.eq_none_iff_forall_not_mem.2 fun ⟨label, value⟩ hsecret => ?_)
  obtain ⟨heq, hlabel, -⟩ := secret?_eq_some_iff.1 hsecret
  obtain ⟨d, label, rfl⟩ := List.exists_cons_of_ne_nil hlabel.ne_nil
  obtain ⟨rfl, -⟩ := List.cons.inj heq
  rw [hlabel.plain c List.mem_cons_self] at h
  cases h

/-! ## Separators -/

section Separators
variable {rest : List Char}

/-- What ends a value ends it, whatever follows. -/
theorem dropWhile_append (h : Stops rest) (value : List Char) :
    (value ++ rest).dropWhile (!isSeparator ·) = value.dropWhile (!isSeparator ·) ++ rest := by
  induction value with
  | nil =>
    cases rest with
    | nil => rfl
    | cons c rest => simp [h c rfl]
  | cons v value ih =>
    by_cases hv : isSeparator v = true
    · simp [hv]
    · simpa [hv] using ih

/-- **No secret reaches across a separator.** -/
theorem secret?_append (h : Stops rest) (cs : List Char) :
    secret? (cs ++ rest) = (secret? cs).map fun (label, value) => (label, value ++ rest) := by
  cases hcs : secret? cs with
  | some found =>
    obtain ⟨label, value⟩ := found
    obtain ⟨rfl, hlabel, v, more, rfl, hv⟩ := secret?_eq_some_iff.1 hcs
    exact secret?_eq_some_iff.2 ⟨by simp, hlabel, v, more ++ rest, rfl, hv⟩
  | none =>
    refine Option.eq_none_iff_forall_not_mem.2 fun ⟨label, value⟩ hsecret => ?_
    obtain ⟨heq, hlabel, v, more, rfl, hv⟩ := secret?_eq_some_iff.1 hsecret
    -- the label and the first character of the value lie in front of the separator
    have hinside : ∃ more', cs = label ++ v :: more' := by
      have heq' : cs ++ rest = label ++ [v] ++ more := by simpa using heq
      rcases List.append_eq_append_iff.1 heq' with ⟨across, hacross, hrest⟩ | ⟨more', hcs', -⟩
      · cases across with
        | nil => exact ⟨[], by simpa using hacross.symm⟩
        | cons c across =>
          have hsep : isSeparator c = true := h c (by rw [hrest]; rfl)
          have hmem : c ∈ label ++ [v] := by
            rw [hacross]
            exact List.mem_append_right _ List.mem_cons_self
          have hplain : isSeparator c = false := by
            rcases List.mem_append.1 hmem with hc | hc
            · exact hlabel.plain c hc
            · rw [List.mem_singleton.1 hc, hv]
          rw [hplain] at hsep
          cases hsep
      · exact ⟨more', by simpa using hcs'⟩
    obtain ⟨more', rfl⟩ := hinside
    rw [secret?_eq_some_iff.2 ⟨rfl, hlabel, v, more', rfl, hv⟩] at hcs
    cases hcs

/-- **What stands in front of a separator is redacted by itself,** and so is what stands behind. -/
theorem sweep_append (h : Stops rest) (cs : List Char) :
    sweep (cs ++ rest) = sweep cs ++ sweep rest := by
  induction hn : cs.length using Nat.strongRecOn generalizing cs with
  | ind n ih =>
    cases cs with
    | nil => rfl
    | cons c cs =>
      cases hsecret : secret? (c :: cs) with
      | none =>
        have hnone : secret? (c :: (cs ++ rest)) = none := by
          rw [← List.cons_append, secret?_append h, hsecret]
          rfl
        rw [List.cons_append, sweep_cons hnone, sweep_cons hsecret, List.cons_append,
          ih cs.length (by rw [← hn]; exact Nat.lt_succ_self _) cs rfl]
      | some found =>
        obtain ⟨label, value⟩ := found
        have hsome : secret? (c :: cs ++ rest) = some (label, value ++ rest) := by
          rw [secret?_append h, hsecret]
          rfl
        have hshort := length_dropWhile_lt hsecret
        rw [hn] at hshort
        rw [sweep_secret hsome, sweep_secret hsecret, dropWhile_append h, ih _ hshort _ rfl]
        simp only [List.append_assoc]

end Separators

/-! ## Values -/

section Values
variable {label front : List Char}

/-- A value is dropped to its end. -/
theorem dropWhile_value {value : List Char} (h : ∀ c ∈ value, isSeparator c = false) :
    value.dropWhile (!isSeparator ·) = [] := by
  rw [List.dropWhile_eq_nil_iff]
  intro c hc
  rw [h c hc]
  rfl

/-- Nothing of a label stands behind an equals sign. -/
theorem IsLabel.eq_nil_of_mark {before after : List Char}
    (h : IsLabel (before ++ '=' :: after)) : after = [] := by
  obtain ⟨spelt, hspelt, heq⟩ := h
  rcases List.eq_nil_or_concat after with rfl | ⟨more, c, rfl⟩
  · rfl
  · have heq' : before ++ '=' :: more ++ [c] = spelt ++ ['='] := by simpa using heq
    have hmem : '=' ∈ spelt := by
      rw [← (List.append_inj' heq' rfl).1]
      exact List.mem_append_right _ List.mem_cons_self
    exact absurd rfl (hspelt.plain hmem).1

/-- **A text without separators in which a label stands** keeps what stands in front of the value of
its leftmost secret, and that does not depend on the value behind the label. -/
theorem exists_sweep_token (hlabel : IsLabel label) (h : ∀ c ∈ front, isSeparator c = false) :
    ∃ kept, ∀ value, IsValue value → sweep (front ++ label ++ value) = kept ++ stars := by
  have replaced {cs label' value' : List Char} (hsecret : secret? cs = some (label', value'))
      (hvalue : ∀ c ∈ value', isSeparator c = false) : sweep cs = label' ++ stars := by
    rw [sweep_secret hsecret, dropWhile_value hvalue, sweep_nil, List.append_nil]
  induction front with
  | nil =>
    refine ⟨label, fun value hvalue => ?_⟩
    obtain ⟨v, more, rfl⟩ := List.exists_cons_of_ne_nil hvalue.1
    refine replaced (secret?_eq_some_iff.2 ⟨rfl, hlabel, v, more, rfl, ?_⟩) hvalue.2
    exact hvalue.2 v List.mem_cons_self
  | cons c front ih =>
    have hplain : ∀ d ∈ c :: front ++ label, isSeparator d = false := by
      intro d hd
      exact (List.mem_append.1 hd).elim (h d) (hlabel.plain d)
    by_cases hfirst : ∃ label' more, c :: front ++ label = label' ++ more ∧ IsLabel label'
    · -- a secret begins here, and its value runs on to the end
      obtain ⟨label', more, heq, hlabel'⟩ := hfirst
      refine ⟨label', fun value hvalue => ?_⟩
      have hall : ∀ d ∈ more ++ value, isSeparator d = false := by
        intro d hd
        rcases List.mem_append.1 hd with hd | hd
        · exact hplain d (heq ▸ List.mem_append_right _ hd)
        · exact hvalue.2 d hd
      have hne : more ++ value ≠ [] := by simp [hvalue.1]
      obtain ⟨v, rest, hv⟩ := List.exists_cons_of_ne_nil hne
      have hbegins : c :: front ++ label ++ value = label' ++ (more ++ value) := by
        rw [heq, List.append_assoc]
      have hv' : isSeparator v = false := hall v (hv ▸ List.mem_cons_self)
      exact replaced (secret?_eq_some_iff.2 ⟨hbegins, hlabel', v, rest, hv, hv'⟩) hall
    · -- no secret begins here: the label would have to reach beyond the one that stands further on
      obtain ⟨kept, hkept⟩ := ih fun d hd => h d (List.mem_cons_of_mem _ hd)
      refine ⟨c :: kept, fun value hvalue => ?_⟩
      have hnone : secret? (c :: (front ++ label ++ value)) = none := by
        refine Option.eq_none_iff_forall_not_mem.2 fun ⟨label', value'⟩ hsecret => hfirst ?_
        obtain ⟨heq, hlabel', -⟩ := secret?_eq_some_iff.1 hsecret
        have heq' : c :: front ++ label ++ value = label' ++ value' := heq
        rcases List.append_eq_append_iff.1 heq' with ⟨beyond, hbeyond, -⟩ | ⟨more, hmore, -⟩
        · obtain ⟨spelt, -, rfl⟩ := id hlabel
          have hnil : beyond = [] := by
            have hmark : IsLabel (c :: front ++ spelt ++ '=' :: beyond) := by
              have hlabel'' := hbeyond ▸ hlabel'
              simpa using hlabel''
            exact hmark.eq_nil_of_mark
          exact ⟨label', [], by rw [hbeyond, hnil, List.append_nil, List.append_nil], hlabel'⟩
        · exact ⟨label', more, hmore, hlabel'⟩
      have hcons : c :: front ++ label ++ value = c :: (front ++ label ++ value) := rfl
      rw [hcons, sweep_cons hnone, hkept value hvalue, List.cons_append]

/-- **What is kept of a text that ends with a secret** does not depend on its value. -/
theorem exists_sweep (hlabel : IsLabel label) (front : List Char) :
    ∃ kept, ∀ value, IsValue value → sweep (front ++ label ++ value) = kept ++ stars := by
  induction hn : front.length using Nat.strongRecOn generalizing front with
  | ind n ih =>
    by_cases hseparator : ∃ c ∈ front, isSeparator c = true
    · obtain ⟨c, hc, hsep⟩ := hseparator
      obtain ⟨before, after, rfl⟩ := List.append_of_mem hc
      obtain ⟨kept, hkept⟩ := ih after.length (by rw [← hn, List.length_append]; simp; omega)
        after rfl
      refine ⟨sweep before ++ c :: kept, fun value hvalue => ?_⟩
      have hstops : Stops (c :: (after ++ label ++ value)) := by
        intro d hd
        rw [List.head?_cons, Option.mem_some] at hd
        rw [← hd, hsep]
      have hassoc : before ++ c :: after ++ label ++ value
          = before ++ c :: (after ++ label ++ value) := by simp
      rw [hassoc, sweep_append hstops, sweep_separator hsep, hkept value hvalue]
      simp
    · refine exists_sweep_token hlabel fun c hc => ?_
      by_cases hsep : isSeparator c = true
      · exact absurd ⟨c, hc, hsep⟩ hseparator
      · simpa using hsep

end Values

/-! ## Messages -/

theorem redact_eq (message : String) : redact message = String.ofList (sweep message.toList) := rfl

/-- **Redaction hides the value of a secret.**  Whatever stands in front of a keyword, in any
spelling, an equals sign and a value, and whatever follows if the value ends there: the message with
one value is redacted to the same text as with another.  What is kept is followed by three stars,
and then by what follows the value, redacted by itself. -/
theorem redact_hides_value (front keyword rest : String) (hkeyword : IsKeyword keyword.toList)
    (hrest : Stops rest.toList) :
    (∀ value value' : String, IsValue value.toList → IsValue value'.toList →
      redact (front ++ keyword ++ "=" ++ value ++ rest)
        = redact (front ++ keyword ++ "=" ++ value' ++ rest)) ∧
    ∃ kept : String, ∀ value : String, IsValue value.toList →
      redact (front ++ keyword ++ "=" ++ value ++ rest) = kept ++ "***" ++ redact rest := by
  have hlabel : IsLabel (keyword.toList ++ ['=']) := ⟨keyword.toList, hkeyword, rfl⟩
  obtain ⟨kept, hkept⟩ := exists_sweep hlabel front.toList
  have hredact : ∀ value : String, IsValue value.toList →
      redact (front ++ keyword ++ "=" ++ value ++ rest)
        = String.ofList kept ++ "***" ++ redact rest := by
    intro value hvalue
    have hmessage : (front ++ keyword ++ "=" ++ value ++ rest).toList
        = front.toList ++ (keyword.toList ++ ['=']) ++ value.toList ++ rest.toList := by
      simp [String.toList_append]
    have hstars : String.ofList stars = "***" := by decide
    rw [redact_eq, hmessage, sweep_append hrest, hkept _ hvalue, String.ofList_append,
      String.ofList_append, hstars, redact_eq]
  refine ⟨fun value value' hvalue hvalue' => ?_, String.ofList kept, hredact⟩
  rw [hredact value hvalue, hredact value' hvalue']

/-- The value of another secret runs into a keyword, which is spelled with a long s; its own value
looks like a secret. -/
theorem redact_hides_nested_value :
    IsKeyword "\u017FIG".toList ∧ Stops "&se=1".toList ∧ IsValue "key=1".toList ∧
      IsValue "x".toList ∧
      redact "a skn=b\u017FIG=key=1&se=1" = redact "a skn=b\u017FIG=x&se=1" := by
  have hkeyword : IsKeyword "\u017FIG".toList := isKeyword_iff.2 (by decide +kernel)
  have hrest : Stops "&se=1".toList := by
    intro c hc
    obtain rfl : '&' = c := by simpa using hc
    rfl
  have hvalue : IsValue "key=1".toList := by decide +kernel
  have hvalue' : IsValue "x".toList := by decide +kernel
  refine ⟨hkeyword, hrest, hvalue, hvalue', ?_⟩
  obtain ⟨hsame, -⟩ := redact_hides_value "a skn=b" "\u017FIG" "&se=1" hkeyword hrest
  exact hsame "key=1" "x" hvalue hvalue'

end DeviceProvisioning.Redaction
