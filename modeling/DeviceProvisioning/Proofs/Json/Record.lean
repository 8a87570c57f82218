import DeviceProvisioning.Json.Record
import DeviceProvisioning.Proofs.Json.Value
import DeviceProvisioning.Registration.Record

/-!
# Records, written and read

A record is accepted in many forms: its members in any order and with others among them, or an array
of its fields.  Whichever form it has, it is put together by the readers of its fields; so what each
of them keeps is kept of every record that is read (`Reader.holds_of_record`).

It is written in one form, the members that are present in the order of their declaration.
`Written` goes through the fields as they are written and says what reading them one after the other
makes of a record.  That no name stands twice and no required field is left out is all that it takes
for the reader to accept this form (`Reader.reads_record`).
-/

namespace DeviceProvisioning.Json

namespace Reader

variable {α β σ : Type}

/-! ## Readers of single values -/

/-- **A reader reads this value as that**, from what is written for it and whatever ends it. -/
def Reads (read : Reader α) (depth : Nat) (v : Json) (a : α) : Prop :=
  ∀ rest, Ends rest → read depth (taken v.chars ++ rest) = some (a, rest)

variable {read : Reader α} {depth : Nat} {v : Json} {a : α}

theorem Reads.map (h : Reads read depth v a) (f : α → β) : Reads (read.map f) depth v (f a) := by
  intro rest hrest
  rw [Reader.map, h rest hrest]
  rfl

theorem Reads.filterMap (h : Reads read depth v a) {f : α → Option β} {b : β} (hf : f a = some b) :
    Reads (read.filterMap f) depth v b := by
  intro rest hrest
  rw [Reader.filterMap, h rest hrest]
  simp [hf]

/-- **A value that cannot be taken for null** by how it begins. -/
def Present (v : Json) : Prop :=
  ∃ c cs, v.chars = c :: cs ∧ Opens c ∧ c ≠ 'n'

theorem present_str (s : String) : Present (.str s) :=
  ⟨'"', _, rfl, by decide, by decide⟩

theorem present_obj (ms : Members) : Present (.obj ms) := by
  cases ms <;> exact ⟨'{', _, rfl, by decide, by decide⟩

theorem present_of_floatFree (h : FloatFree v) (hnull : v ≠ .null) : Present v := by
  obtain ⟨c, cs, hchars, hopens, hn⟩ := exists_chars h
  exact ⟨c, cs, hchars, hopens, fun heq => hnull (hn heq)⟩

theorem Reads.optional (h : Reads read depth v a) (hpresent : Present v) :
    Reads read.optional depth v (some a) := by
  obtain ⟨c, cs, hchars, hopens, hn⟩ := hpresent
  intro rest hrest
  have hread := h rest hrest
  rw [hchars] at hread ⊢
  have hskip : skipBlank (taken (c :: cs) ++ rest) = some c :: (taken cs ++ rest) :=
    skipBlank_opens hopens _
  rw [Reader.optional, hskip]
  split
  · rename_i heq
    exact absurd (Option.some.inj (List.cons.inj heq).1) hn
  · rw [hread]
    rfl

theorem reads_text (s : String) : Reads text depth (.str s) s :=
  fun rest _ => string_quote s rest

theorem reads_integer {n : Int} (hn : InRange n) (hsigned : n < (UInt64.size / 2 : Nat)) :
    Reads integer depth (.int n) n := by
  intro rest hrest
  obtain ⟨c, cs, hchars, hopens, -⟩ := exists_chars (.int n)
  obtain ⟨l, hscan, hvalue⟩ := Literal.scan_integer hn hrest
  have hchars' : Number.signedDecimal n = c :: cs := hchars
  have hskip : skipBlank (taken (c :: cs) ++ rest) = taken (c :: cs) ++ rest :=
    skipBlank_opens hopens _
  rw [hchars'] at hscan
  rw [hchars, integer, hskip, hscan]
  simp only [Option.bind_eq_bind, Option.bind_some, hvalue, if_pos hsigned]

theorem reads_choice {ofName? : String → Option α} {name : String} (h : ofName? name = some a) :
    Reads (choice ofName?) depth (.str name) a := by
  intro rest _
  show (string (taken (quote name) ++ rest)).bind _ = _
  rw [string_quote]
  simp [h]

theorem reads_any (h : Fits depth v) (hfree : FloatFree v) : Reads any depth v v :=
  fun _ hrest => any_chars h hfree hrest

/-- An integer that is read has sixty-four bits, one of them the sign. -/
theorem range_of_integer {s rest : Symbols} {n : Int} (h : integer depth s = some (n, rest)) :
    InRange n ∧ n < (UInt64.size / 2 : Nat) := by
  obtain ⟨⟨l, s'⟩, -, h⟩ := Option.bind_eq_some_iff.1 h
  dsimp only at h
  split at h
  · rename_i m hvalue
    split at h
    · rename_i hsigned
      obtain ⟨rfl, -⟩ := Prod.mk.inj (Option.some.inj h)
      rcases Literal.value?_cases hvalue with ⟨k, hk, hrange⟩ | ⟨x, hx⟩
      · obtain rfl := Json.int.inj hk
        exact ⟨hrange, hsigned⟩
      · cases hx
    · cases h
  · cases h

/-- What is made of a whole text has been read off its front. -/
theorem exists_of_run {s : Symbols} (h : read.run s = some a) :
    ∃ rest, read maxDepth s = some (a, rest) := by
  obtain ⟨⟨b, rest⟩, hread, h⟩ := Option.bind_eq_some_iff.1 h
  dsimp only at h
  split at h
  · exact ⟨rest, by rw [hread, Option.some.inj h]⟩
  · cases h

/-- **What is written for a value is read again** as a whole text. -/
theorem Reads.run (h : Reads read maxDepth v a) :
    read.run (Text.Utf8.decode (Text.Utf8.encode v.render)) = some a := by
  refine run_render ?_
  have hread := h [] .all
  rwa [List.append_nil] at hread

/-! ## Records that are written -/

/-- **What is written for the fields of a record**, and what reading it makes of a record: a field
that need not be present is left out, or what stands for it sets it. -/
inductive Written (depth : Nat) :
    List (Member σ) → List (String × Option Json) → σ → σ → Prop where
  | nil (r : σ) : Written depth [] [] r r
  | present {field : Member σ} {fields : List (Member σ)} {values : List (String × Option Json)}
      {r r' : σ} {v : Json} {set : σ → σ} (read : Reads field.read depth v set)
      (more : Written depth fields values (set r) r') :
    Written depth (field :: fields) ((field.name, some v) :: values) r r'
  | absent {field : Member σ} {fields : List (Member σ)} {values : List (String × Option Json)}
      {r r' : σ} (free : field.required = false) (more : Written depth fields values r r') :
    Written depth (field :: fields) ((field.name, none) :: values) r r'

/-- A field is set by what is written for it. -/
theorem Written.set {read : Reader α} {name : String} {required : Bool} {update : α → σ → σ}
    {fields : List (Member σ)} {values : List (String × Option Json)} {r r' : σ}
    (hread : Reads read depth v a) (more : Written depth fields values (update a r) r') :
    Written depth (⟨name, required, .map update read⟩ :: fields) ((name, some v) :: values) r r' :=
  .present (hread.map update) more

/-- A field that need not be present is left out if there is nothing to write. -/
theorem Written.optional {read : Reader α} {write : α → Json} {o : Option α} {name : String}
    {update : Option α → σ → σ} {fields : List (Member σ)} {value : Option Json}
    {values : List (String × Option Json)} {r r' : σ} (hvalue : value = o.map write)
    (hread : ∀ a ∈ o, Reads read depth (write a) a ∧ Present (write a))
    (hnone : update none r = r) (more : Written depth fields values (update o r) r') :
    Written depth (⟨name, false, .map update read.optional⟩ :: fields)
      ((name, value) :: values) r r' := by
  subst hvalue
  cases o with
  | none => exact .absent rfl (hnone ▸ more)
  | some a =>
    obtain ⟨hback, hpresent⟩ := hread a rfl
    exact .set (hback.optional hpresent) more

/-- The members that are present. -/
def presentMembers (values : List (String × Option Json)) : Members :=
  values.filterMap fun (key, value) => value.map (key, ·)

/-- What comes after a member of a record. -/
def afterMember (all : List (Member σ)) (fuel depth : Nat) (seen : List String) (r : σ)
    (s : Symbols) : Option ((List String × σ) × Symbols) :=
  match skipBlank s with
  | some ',' :: rest => members all fuel depth seen r rest
  | some '}' :: rest => some ((seen, r), rest)
  | _ => none

/-- **A member that sets a field is read.** -/
theorem members_field {all : List (Member σ)} {field : Member σ} {fuel : Nat} {seen : List String}
    {r : σ} {set : σ → σ} (hfind : all.find? (·.name == field.name) = some field)
    (hseen : field.name ∉ seen) (hread : Reads field.read depth v set) {more : Symbols}
    (hmore : Ends more) :
    members all (fuel + 1) depth seen r
        (taken (quote field.name) ++ some ':' :: (taken v.chars ++ more))
      = afterMember all fuel depth (field.name :: seen) (set r) more := by
  have hkey : string (skipBlank (taken (quote field.name) ++ some ':' :: (taken v.chars ++ more)))
      = some (field.name, some ':' :: (taken v.chars ++ more)) := string_quote field.name _
  have hcolon : colon (some ':' :: (taken v.chars ++ more)) = some (taken v.chars ++ more) := rfl
  rw [members, hkey]
  simp only [Option.bind_eq_bind, Option.bind_some, hfind, if_neg hseen, hcolon,
    hread more hmore]
  rfl

theorem length_le_memberChars (ms : Members) : ms.length ≤ (memberChars ms).length := by
  induction ms with
  | nil => exact Nat.zero_le _
  | cons m ms ih =>
    simp only [memberChars, List.length_cons, List.length_append]
    omega

/-- No required field is left out. -/
theorem Written.mem_names {fields : List (Member σ)} {values : List (String × Option Json)}
    {r r' : σ} (h : Written depth fields values r r') {f : Member σ} (hf : f ∈ fields)
    (hrequired : f.required = true) : f.name ∈ (presentMembers values).map Prod.fst := by
  induction h with
  | nil r => cases hf
  | @present field fields values r r' v set hread more ih =>
    rcases List.mem_cons.1 hf with rfl | hf
    · exact List.mem_cons_self
    · exact List.mem_cons_of_mem _ (ih hf)
  | absent free more ih =>
    rcases List.mem_cons.1 hf with rfl | hf
    · rw [free] at hrequired
      cases hrequired
    · exact ih hf

/-- **The members that are written are read** one after the other.  The induction is on the fields;
those that are left out leave no trace. -/
theorem afterMember_written {all fields : List (Member σ)} {values : List (String × Option Json)}
    {r r' : σ} (h : Written depth fields values r r')
    (hall : ∀ f ∈ fields, all.find? (·.name == f.name) = some f)
    (hnodup : (fields.map (·.name)).Nodup) {seen : List String}
    (hseen : ∀ f ∈ fields, f.name ∉ seen) {fuel : Nat}
    (hfuel : (presentMembers values).length ≤ fuel) (rest : Symbols) :
    afterMember all fuel depth seen r (taken (memberChars (presentMembers values)) ++ rest)
      = some ((((presentMembers values).map Prod.fst).reverse ++ seen, r'), rest) := by
  induction h generalizing seen fuel with
  | nil r => rfl
  | @present field fields values r r' v set hread more ih =>
    have hmembers : presentMembers ((field.name, some v) :: values)
        = (field.name, v) :: presentMembers values := rfl
    rw [List.map_cons, List.nodup_cons] at hnodup
    rw [hmembers, List.length_cons] at hfuel
    obtain ⟨fuel, rfl⟩ : ∃ n, fuel = n + 1 := ⟨fuel - 1, by omega⟩
    have hnew : ∀ f ∈ fields, f.name ∉ field.name :: seen := by
      intro f hf hmem
      rcases List.mem_cons.1 hmem with heq | hmem
      · exact hnodup.1 (heq ▸ List.mem_map_of_mem hf)
      · exact hseen f (List.mem_cons_of_mem _ hf) hmem
    have hrest := ih (fun f hf => hall f (List.mem_cons_of_mem _ hf)) hnodup.2 hnew
      (Nat.le_of_succ_le_succ hfuel)
    have htext : taken (quote field.name ++ ':' :: (v.chars ++ memberChars (presentMembers values)))
          ++ rest
        = taken (quote field.name) ++ some ':' ::
            (taken v.chars ++ (taken (memberChars (presentMembers values)) ++ rest)) := by
      simp
    show members all (fuel + 1) depth seen r
      (taken (quote field.name ++ ':' :: (v.chars ++ memberChars (presentMembers values))) ++ rest)
        = _
    rw [htext, members_field (hall field List.mem_cons_self) (hseen field List.mem_cons_self) hread
      (ends_memberChars _ _), hrest, hmembers, List.map_cons, List.reverse_cons, List.append_assoc]
    rfl
  | absent free more ih =>
    exact ih (fun f hf => hall f (List.mem_cons_of_mem _ hf)) (List.nodup_cons.1 hnodup).2
      (fun f hf => hseen f (List.mem_cons_of_mem _ hf)) hfuel

/-- A field is found by its name. -/
theorem find?_name {fields : List (Member σ)} (hnodup : (fields.map (·.name)).Nodup)
    {field : Member σ} (h : field ∈ fields) :
    fields.find? (·.name == field.name) = some field := by
  induction fields with
  | nil => cases h
  | cons f fields ih =>
    rw [List.map_cons, List.nodup_cons] at hnodup
    rcases List.mem_cons.1 h with rfl | h
    · rw [List.find?_cons_of_pos (by simp)]
    · have hne : f.name ≠ field.name := fun heq => hnodup.1 (heq ▸ List.mem_map_of_mem h)
      rw [List.find?_cons_of_neg (by simpa using hne), ih hnodup.2 h]

/-- **A record that is written is read back.** -/
theorem reads_record {fields : List (Member σ)} {values : List (String × Option Json)}
    {blank r : σ} (h : Written depth fields values blank r)
    (hnodup : (fields.map (·.name)).Nodup) :
    Reads (record fields blank) (depth + 1) (.ofPresent values) r := by
  intro rest _
  have hfuel : (presentMembers values).length
      ≤ (taken (memberChars (presentMembers values)) ++ rest).length := by
    rw [List.length_append, List.length_map]
    exact Nat.le_trans (length_le_memberChars _) (Nat.le_add_right _ _)
  have hread := afterMember_written h (fun f hf => find?_name hnodup hf) hnodup
    (fun _ _ => List.not_mem_nil) hfuel rest
  have hchecked : (fields.all fun f => !f.required ||
      f.name ∈ ((presentMembers values).map Prod.fst).reverse ++ []) = true := by
    rw [List.all_eq_true]
    intro f hf
    cases hrequired : f.required with
    | false => rfl
    | true => simpa using h.mem_names hf hrequired
  show record fields blank (depth + 1) (taken (Json.obj (presentMembers values)).chars ++ rest) = _
  generalize presentMembers values = ms at hread hchecked
  cases ms with
  | nil =>
    obtain ⟨heq, -⟩ := Prod.mk.inj (Option.some.inj hread)
    obtain ⟨-, rfl⟩ := Prod.mk.inj heq
    exact if_pos hchecked
  | cons m ms =>
    obtain ⟨k, v⟩ := m
    -- behind the opening brace stands what would stand behind a comma
    show (afterMember fields (taken (memberChars ((k, v) :: ms)) ++ rest).length depth [] blank
      (taken (memberChars ((k, v) :: ms)) ++ rest)).bind _ = _
    rw [hread]
    exact if_pos hchecked

/-! ## Records that are read -/

/-- **A field keeps this of a record**, whatever is read for it. -/
def Keeps (holds : σ → Prop) (depth : Nat) (field : Member σ) : Prop :=
  ∀ (s rest : Symbols) (set : σ → σ), field.read depth s = some (set, rest) →
    ∀ r, holds r → holds (set r)

section Keeps

variable {holds : σ → Prop} {fields : List (Member σ)} {r r' : σ} {s rest : Symbols}

theorem Keeps.map {f : α → σ → σ} {name : String} {required : Bool}
    (h : ∀ {s rest : Symbols} {a : α}, read depth s = some (a, rest) →
      ∀ r, holds r → holds (f a r)) :
    Keeps holds depth ⟨name, required, read.map f⟩ := by
  intro s rest set hread r hr
  obtain ⟨⟨a, _⟩, ha, heq⟩ := Option.map_eq_some_iff.1 hread
  obtain ⟨rfl, -⟩ := Prod.mk.inj heq
  exact h ha r hr

/-- What is read for an optional field is absent, or the value that stands there. -/
theorem optional_cases {o : Option α} (h : read.optional depth s = some (o, rest)) :
    o = none ∨ ∃ a, o = some a ∧ read depth s = some (a, rest) ∧
      ∀ more, skipBlank s ≠ some 'n' :: more := by
  rw [Reader.optional] at h
  split at h
  · obtain ⟨_, -, heq⟩ := Option.map_eq_some_iff.1 h
    exact .inl (Prod.mk.inj heq).1.symm
  · rename_i hother
    obtain ⟨⟨a, _⟩, hread, heq⟩ := Option.map_eq_some_iff.1 h
    obtain ⟨rfl, rfl⟩ := Prod.mk.inj heq
    exact .inr ⟨a, rfl, hread, hother⟩

/-- What is read for an optional field of any kind is no null. -/
theorem fits_of_optional {o : Option Json} (h : any.optional depth s = some (o, rest)) :
    ∀ v ∈ o, Fits depth v ∧ v ≠ .null := by
  rcases optional_cases h with rfl | ⟨v, rfl, hread, hfirst⟩
  · exact nofun
  · rintro _ ⟨⟩
    refine ⟨fits_of_any hread, ?_⟩
    rintro rfl
    obtain ⟨more, hskip⟩ := null_of_any hread
    exact hfirst more hskip

/-- What the reader of an optional field gives is what the reader of its value does. -/
theorem forall_of_optional {P : α → Prop} {o : Option α}
    (h : read.optional depth s = some (o, rest))
    (hread : ∀ {a}, read depth s = some (a, rest) → P a) : ∀ a ∈ o, P a := by
  rcases optional_cases h with rfl | ⟨a, rfl, ha, -⟩
  · exact nofun
  · rintro _ ⟨⟩
    exact hread ha

theorem holds_of_members (h : ∀ f ∈ fields, Keeps holds depth f) {fuel : Nat}
    {seen seen' : List String} (hr : holds r)
    (hread : members fields fuel depth seen r s = some ((seen', r'), rest)) : holds r' := by
  induction fuel generalizing seen r s with
  | zero => cases hread
  | succ fuel ih =>
    have hafter {seen : List String} {r : σ} {s : Symbols} (hr : holds r)
        (hread : afterMember fields fuel depth seen r s = some ((seen', r'), rest)) : holds r' := by
      rw [afterMember] at hread
      split at hread
      · exact ih hr hread
      · obtain ⟨heq, -⟩ := Prod.mk.inj (Option.some.inj hread)
        obtain ⟨-, rfl⟩ := Prod.mk.inj heq
        exact hr
      · cases hread
    rw [members] at hread
    obtain ⟨⟨key, s₁⟩, -, hread⟩ := Option.bind_eq_some_iff.1 hread
    dsimp only at hread
    split at hread
    · rename_i field hfind
      split at hread
      · cases hread
      · obtain ⟨s₂, -, hread⟩ := Option.bind_eq_some_iff.1 hread
        obtain ⟨⟨set, s₃⟩, hset, hread⟩ := Option.bind_eq_some_iff.1 hread
        exact hafter (h field (List.mem_of_find?_eq_some hfind) _ _ _ hset r hr) hread
    · obtain ⟨s₂, -, hread⟩ := Option.bind_eq_some_iff.1 hread
      obtain ⟨s₃, -, hread⟩ := Option.bind_eq_some_iff.1 hread
      exact hafter hr hread

theorem holds_of_items (h : ∀ f ∈ fields, Keeps holds depth f) (hr : holds r)
    (hread : items depth fields r s = some (r', rest)) : holds r' := by
  induction fields generalizing r s with
  | nil => cases hread
  | cons field fields ih =>
    rw [items] at hread
    obtain ⟨⟨set, s₁⟩, hset, hread⟩ := Option.bind_eq_some_iff.1 hread
    have hr' : holds (set r) := h field List.mem_cons_self _ _ _ hset r hr
    dsimp only at hread
    split at hread
    · exact ih (fun f hf => h f (List.mem_cons_of_mem _ hf)) hr' hread
    · split at hread
      · cases hread
      · obtain ⟨rfl, -⟩ := Prod.mk.inj (Option.some.inj hread)
        exact hr'
    · cases hread

/-- **What every field keeps holds of a record that is read**, in whichever form. -/
theorem holds_of_record {blank : σ} (h : ∀ f ∈ fields, Keeps holds depth f) (hblank : holds blank)
    (hread : record fields blank (depth + 1) s = some (r, rest)) : holds r := by
  have hchecked {seen : List String} {r₁ : σ} {s₁ : Symbols} (hr₁ : holds r₁)
      (hread : (if fields.all fun f => !f.required || f.name ∈ seen then some (r₁, s₁) else none)
        = some (r, rest)) : holds r := by
    split at hread
    · obtain ⟨rfl, -⟩ := Prod.mk.inj (Option.some.inj hread)
      exact hr₁
    · cases hread
  unfold record at hread
  generalize skipBlank s = front at hread
  generalize hdepth : depth + 1 = depth' at hread
  split at hread
  · obtain rfl := Nat.succ.inj hdepth
    split at hread
    · exact hchecked hblank hread
    · obtain ⟨⟨⟨seen, r₁⟩, s₁⟩, hmembers, hread⟩ := Option.bind_eq_some_iff.1 hread
      exact hchecked (holds_of_members h hblank hmembers) hread
  · obtain rfl := Nat.succ.inj hdepth
    split at hread
    · split at hread
      · cases hread
      · obtain ⟨rfl, -⟩ := Prod.mk.inj (Option.some.inj hread)
        exact hblank
    · exact holds_of_items h hblank hread
  · cases hread

end Keeps

end Reader

end DeviceProvisioning.Json
