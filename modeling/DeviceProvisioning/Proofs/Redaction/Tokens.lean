import DeviceProvisioning.Proofs.Redaction

/-!
# What redaction does to a message, token by token

A message is cut at every separator into tokens.  In a token at most one value is replaced: the one
behind the leftmost label that something follows, and it reaches to the end of the token.  All else
stays as it is.  `Redacted` says this without any scan, and `redact_by_tokens` that redaction does
this and nothing else.

The stars that stand for a value look like a value themselves, and what has been redacted may be
redacted again.  That changes nothing, because no label can end among the stars: a label that begins
further left would have been there before (`Leftmost.stars`).
-/

namespace DeviceProvisioning.Redaction

variable {token out cs front label value : List Char}

/-! ## Tokens -/

/-- **The secret of a token**: a label and a value, such that no label with something behind it
begins further left. -/
structure Leftmost (token front label value : List Char) : Prop where
  split : token = front ++ label ++ value
  isLabel : IsLabel label
  nonempty : value ≠ []
  first : ∀ front' label' value', token = front' ++ label' ++ value' → IsLabel label' →
    value' ≠ [] → front.length ≤ front'.length

/-- **What becomes of a token**: the value of its secret is replaced, if it has one. -/
inductive TokenRedacted (token : List Char) : List Char → Prop where
  | secret (front label value : List Char) (h : Leftmost token front label value) :
    TokenRedacted token (front ++ label ++ stars)
  | plain (h : ∀ front label value, IsLabel label → value ≠ [] →
      token ≠ front ++ label ++ value) :
    TokenRedacted token token

/-- A token has one secret at most. -/
theorem Leftmost.unique {front' label' value' : List Char} (h : Leftmost token front label value)
    (h' : Leftmost token front' label' value') : front = front' ∧ label = label' := by
  have hlength : front.length = front'.length :=
    Nat.le_antisymm (h.first _ _ _ h'.split h'.isLabel h'.nonempty)
      (h'.first _ _ _ h.split h.isLabel h.nonempty)
  have hsplit : front ++ (label ++ value) = front' ++ (label' ++ value') := by
    rw [← List.append_assoc, ← List.append_assoc, ← h.split, ← h'.split]
  obtain ⟨rfl, hrest⟩ := List.append_inj hsplit hlength
  exact ⟨rfl, (h.isLabel.unique h'.isLabel hrest).1⟩

/-- One thing only becomes of a token. -/
theorem TokenRedacted.unique {out' : List Char} (h : TokenRedacted token out)
    (h' : TokenRedacted token out') : out = out' := by
  cases h with
  | secret front label value hl =>
    cases h' with
    | secret front' label' value' hl' =>
      obtain ⟨rfl, rfl⟩ := hl.unique hl'
      rfl
    | plain hnone => exact absurd hl.split (hnone _ _ _ hl.isLabel hl.nonempty)
  | plain hnone =>
    cases h' with
    | secret front' label' value' hl' =>
      exact absurd hl'.split (hnone _ _ _ hl'.isLabel hl'.nonempty)
    | plain => rfl

/-- **A label that ends in front of the stars was there before,** and so nothing changes when the
stars are taken for a value. -/
theorem Leftmost.stars (h : Leftmost token front label value) :
    Leftmost (front ++ label ++ stars) front label stars where
  split := rfl
  isLabel := h.isLabel
  nonempty := by decide
  first front' label' value' hsplit hlabel' _ := by
    have hinside : ∃ more, front ++ label = front' ++ label' ++ more := by
      rcases List.append_eq_append_iff.1 hsplit with ⟨more, hmore, hstars⟩ | ⟨more, hmore, -⟩
      · -- the label cannot end among the stars
        obtain ⟨spelt, -, rfl⟩ := hlabel'
        rcases List.eq_nil_or_concat more with rfl | ⟨before, c, rfl⟩
        · exact ⟨[], by simpa using hmore.symm⟩
        · have hend : front' ++ spelt ++ ['='] = front ++ label ++ before ++ [c] := by
            simpa using hmore
          obtain rfl : '=' = c := by simpa using (List.append_inj' hend rfl).2
          have hmem : '=' ∈ Redaction.stars := by
            rw [hstars]
            simp
          exact absurd hmem (by decide)
      · exact ⟨more, hmore⟩
    obtain ⟨more, hmore⟩ := hinside
    refine h.first front' label' (more ++ value) ?_ hlabel' (by simp [h.nonempty])
    rw [h.split, hmore, List.append_assoc]

/-- **The scan does to a token what becomes of it.** -/
theorem sweep_token (h : ∀ c ∈ token, isSeparator c = false) :
    TokenRedacted token (sweep token) := by
  induction token with
  | nil =>
    refine .plain fun front label value hlabel _ heq => hlabel.ne_nil ?_
    exact (List.append_eq_nil_iff.1 (List.append_eq_nil_iff.1 heq.symm).1).2
  | cons c cs ih =>
    cases hsecret : secret? (c :: cs) with
    | some found =>
      obtain ⟨label, value⟩ := found
      obtain ⟨hsplit, hlabel, v, more, hvalue, -⟩ := secret?_eq_some_iff.1 hsecret
      have hplain : ∀ d ∈ value, isSeparator d = false := fun d hd =>
        h d (hsplit ▸ List.mem_append_right _ hd)
      rw [sweep_secret hsecret, dropWhile_value hplain, sweep_nil, List.append_nil]
      exact .secret [] label value
        ⟨hsplit, hlabel, by simp [hvalue], fun _ _ _ _ _ _ => Nat.zero_le _⟩
    | none =>
      -- a label that is followed by something does not begin here, so it begins further on
      have hlater {front label value : List Char} (hlabel : IsLabel label) (hne : value ≠ [])
          (hsplit : c :: cs = front ++ label ++ value) :
          ∃ front', front = c :: front' ∧ cs = front' ++ label ++ value := by
        cases front with
        | nil =>
          obtain ⟨v, more, rfl⟩ := List.exists_cons_of_ne_nil hne
          have hv : isSeparator v = false := h v (by rw [hsplit]; simp)
          have hsome := secret?_eq_some_iff.2 ⟨hsplit, hlabel, v, more, rfl, hv⟩
          rw [hsecret] at hsome
          cases hsome
        | cons d front =>
          obtain ⟨rfl, hcs⟩ := List.cons.inj hsplit
          exact ⟨front, rfl, hcs⟩
      rw [sweep_cons hsecret]
      have hrest := ih fun d hd => h d (List.mem_cons_of_mem _ hd)
      generalize sweep cs = kept at hrest ⊢
      cases hrest with
      | secret front label value hl =>
        refine .secret (c :: front) label value
          ⟨by rw [hl.split]; rfl, hl.isLabel, hl.nonempty, ?_⟩
        intro front' label' value' hsplit hlabel' hne
        obtain ⟨front', rfl, hcs⟩ := hlater hlabel' hne hsplit
        exact Nat.succ_le_succ (hl.first front' label' value' hcs hlabel' hne)
      | plain hnone =>
        refine .plain fun front label value hlabel hne hsplit => ?_
        obtain ⟨front', -, hcs⟩ := hlater hlabel hne hsplit
        exact hnone front' label value hlabel hne hcs

/-! ## Texts -/

/-- **What becomes of a text**: it is cut at every separator; the separators stay in their places,
and of each token becomes what becomes of it. -/
inductive Redacted : List Char → List Char → Prop where
  | last {token out : List Char} (plain : ∀ c ∈ token, isSeparator c = false)
      (h : TokenRedacted token out) : Redacted token out
  | more {token out rest rest' : List Char} (c : Char)
      (plain : ∀ c ∈ token, isSeparator c = false) (h : TokenRedacted token out)
      (separator : isSeparator c = true) (hrest : Redacted rest rest') :
    Redacted (token ++ c :: rest) (out ++ c :: rest')

/-- A token in front of a separator is redacted by itself. -/
theorem sweep_front {c : Char} (hc : isSeparator c = true) (token rest : List Char) :
    sweep (token ++ c :: rest) = sweep token ++ c :: sweep rest := by
  have hstops : Stops (c :: rest) := by
    intro d hd
    obtain rfl : c = d := by simpa using hd
    exact hc
  rw [sweep_append hstops, sweep_separator hc]

/-- The scan does to a text what becomes of it. -/
theorem redacted_sweep (cs : List Char) : Redacted cs (sweep cs) := by
  have key : ∀ cs token : List Char, (∀ c ∈ token, isSeparator c = false) →
      Redacted (token ++ cs) (sweep (token ++ cs)) := by
    intro cs
    induction cs with
    | nil =>
      intro token hplain
      rw [List.append_nil]
      exact .last hplain (sweep_token hplain)
    | cons c cs ih =>
      intro token hplain
      by_cases hc : isSeparator c = true
      · rw [sweep_front hc]
        exact .more c hplain (sweep_token hplain) hc (ih [] nofun)
      · have hlonger : ∀ d ∈ token ++ [c], isSeparator d = false := by
          intro d hd
          rcases List.mem_append.1 hd with hd | hd
          · exact hplain d hd
          · rw [List.mem_singleton.1 hd]
            simpa using hc
        simpa using ih (token ++ [c]) hlonger
  exact key cs [] nofun

/-- One thing only becomes of a text. -/
theorem Redacted.eq_sweep (h : Redacted cs out) : out = sweep cs := by
  induction h with
  | last hplain h => exact h.unique (sweep_token hplain)
  | more c hplain h hc _ ih =>
    rw [sweep_front hc, ← ih, h.unique (sweep_token hplain)]

/-- **What has been redacted stays as it is.** -/
theorem Redacted.again (h : Redacted cs out) : Redacted out out := by
  have token {token out : List Char} (hplain : ∀ c ∈ token, isSeparator c = false)
      (h : TokenRedacted token out) :
      (∀ c ∈ out, isSeparator c = false) ∧ TokenRedacted out out := by
    cases h with
    | secret front label value hl =>
      refine ⟨fun c hc => ?_, .secret front label stars hl.stars⟩
      rcases List.mem_append.1 hc with hkept | hstar
      · exact hplain c (by rw [hl.split]; exact List.mem_append_left _ hkept)
      · have hstars : stars.all (!isSeparator ·) = true := by decide
        simpa using List.all_eq_true.1 hstars c hstar
    | plain hnone => exact ⟨hplain, .plain hnone⟩
  induction h with
  | last hplain h => exact .last (token hplain h).1 (token hplain h).2
  | more c hplain h hc _ ih => exact .more c (token hplain h).1 (token hplain h).2 hc ih

/-! ## Messages -/

/-- **Redaction replaces the value of the leftmost secret of each token,** and leaves all else as it
is: the redacted message is what becomes of the message, and nothing else is.  Redacting once more
changes nothing. -/
theorem redact_by_tokens (message : String) :
    redact (redact message) = redact message ∧
      ∀ out : String, Redacted message.toList out.toList ↔ out = redact message := by
  have hredact (message : String) : (redact message).toList = sweep message.toList := by
    rw [redact_eq, String.toList_ofList]
  have hiff (message out : String) : Redacted message.toList out.toList ↔ out = redact message := by
    rw [← String.toList_inj, hredact]
    constructor
    · exact fun h => h.eq_sweep
    · intro h
      rw [h]
      exact redacted_sweep _
  refine ⟨?_, hiff message⟩
  have hagain := ((hiff message (redact message)).2 rfl).again
  exact ((hiff _ _).1 hagain).symm

/-- A label without a value stays, and so does one behind the first, which goes with its value. -/
example : redact "sig= a.SKN=b;key=c&key==" = "sig= a.SKN=***&key=***" := by decide +kernel

end DeviceProvisioning.Redaction
