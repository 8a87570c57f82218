import DeviceProvisioning.Proofs.Json.Scalar
import DeviceProvisioning.Proofs.Text.Utf8

/-!
# Values of JSON, written and read

What a reader gives is a value of a certain kind (`Fits`): its integers are of sixty-four bits, the
members of its objects stand in the order of their keys, each key once, and no more brackets are
open in it at one time than the reader may open.  Conversely a value of this kind is read back from
what is written for it, if it holds no floating-point number (`any_chars`).

Reading goes through a value as it is built, so the proof is by induction on `Fits`; an array or an
object opens one bracket, and its items or members are read one after the other, each up to the
comma or the bracket that follows it.  The calls that a reader may make are more than it needs: two
for every character (`ReadsBack`).
-/

namespace DeviceProvisioning.Json

open DeviceProvisioning.Number

/-- **What a reader can give** that may open so many brackets. -/
inductive Fits : Nat → Json → Prop where
  | null {depth : Nat} : Fits depth .null
  | bool {depth : Nat} (b : Bool) : Fits depth (.bool b)
  | int {depth : Nat} {n : Int} (h : InRange n) : Fits depth (.int n)
  | float {depth : Nat} (x : Binary64) : Fits depth (.float x)
  | str {depth : Nat} (s : String) : Fits depth (.str s)
  | arr {depth : Nat} {items : List Json} (h : ∀ v ∈ items, Fits depth v) :
    Fits (depth + 1) (.arr items)
  | obj {depth : Nat} {members : Members}
      (sorted : (members.map Prod.fst).Pairwise (· < ·)) (h : ∀ m ∈ members, Fits depth m.2) :
    Fits (depth + 1) (.obj members)

/-- **A value without floating-point numbers.** -/
inductive FloatFree : Json → Prop where
  | null : FloatFree .null
  | bool (b : Bool) : FloatFree (.bool b)
  | int (n : Int) : FloatFree (.int n)
  | str (s : String) : FloatFree (.str s)
  | arr {items : List Json} (h : ∀ v ∈ items, FloatFree v) : FloatFree (.arr items)
  | obj {members : Members} (h : ∀ m ∈ members, FloatFree m.2) : FloatFree (.obj members)

/-! ## Objects -/

theorem insert_last {key : String} {value : Json} {ms : Members} (h : ∀ m ∈ ms, m.1 < key) :
    insert key value ms = ms ++ [(key, value)] := by
  induction ms with
  | nil => rfl
  | cons m ms ih =>
    obtain ⟨k, v⟩ := m
    have hk : k < key := h (k, v) List.mem_cons_self
    have hrest := ih fun m hm => h m (List.mem_cons_of_mem _ hm)
    rw [insert, if_neg (String.lt_asymm hk), if_neg (String.ne_of_lt hk).symm, hrest]
    rfl

/-- Puts one member after the other in its place. -/
def insertAll (done : Members) : List (String × Json) → Members
  | [] => done
  | m :: ms => insertAll (insert m.1 m.2 done) ms

theorem ofMembers_eq (ms : List (String × Json)) : ofMembers ms = .obj (insertAll [] ms) := by
  have key (done : Members) : ms.foldl (fun done m => insert m.1 m.2 done) done = insertAll done ms := by
    induction ms generalizing done with
    | nil => rfl
    | cons m ms ih => exact ih _
  exact congrArg Json.obj (key [])

/-- Members in the order of their keys stay as they are. -/
theorem insertAll_sorted {done ms : Members} (h : ((done ++ ms).map Prod.fst).Pairwise (· < ·)) :
    insertAll done ms = done ++ ms := by
  induction ms generalizing done with
  | nil => rw [insertAll, List.append_nil]
  | cons m ms ih =>
    have hbelow : ∀ p ∈ done, p.1 < m.1 := by
      intro p hp
      rw [List.map_append, List.pairwise_append] at h
      exact h.2.2 _ (List.mem_map_of_mem hp) _ List.mem_cons_self
    have hsplit : done ++ [m] ++ ms = done ++ m :: ms := by simp
    rw [insertAll, insert_last hbelow, ih (by rwa [hsplit]), hsplit]

theorem ofMembers_sorted {ms : Members} (h : (ms.map Prod.fst).Pairwise (· < ·)) :
    ofMembers ms = .obj ms := by
  rw [ofMembers_eq, insertAll_sorted (by simpa using h), List.nil_append]

theorem mem_insert {key : String} {value : Json} {ms : Members} {m : String × Json}
    (h : m ∈ insert key value ms) : m = (key, value) ∨ m ∈ ms := by
  induction ms with
  | nil => exact .inl (List.mem_singleton.1 h)
  | cons p ms ih =>
    obtain ⟨k, v⟩ := p
    rw [insert] at h
    split at h
    · exact List.mem_cons.1 h
    · split at h
      · exact (List.mem_cons.1 h).imp_right (List.mem_cons_of_mem _)
      · rcases List.mem_cons.1 h with rfl | h
        · exact .inr List.mem_cons_self
        · exact (ih h).imp_right (List.mem_cons_of_mem _)

/-- A member is put in its place. -/
theorem insert_sorted {key : String} (value : Json) {ms : Members}
    (h : (ms.map Prod.fst).Pairwise (· < ·)) :
    ((insert key value ms).map Prod.fst).Pairwise (· < ·) := by
  induction ms with
  | nil => exact List.pairwise_singleton _ _
  | cons p ms ih =>
    obtain ⟨k, v⟩ := p
    rw [List.map_cons, List.pairwise_cons] at h
    rw [insert]
    split
    · rename_i hlt
      rw [List.map_cons, List.map_cons, List.pairwise_cons, List.pairwise_cons]
      refine ⟨fun k' hk' => ?_, h⟩
      rcases List.mem_cons.1 hk' with rfl | hk'
      · exact hlt
      · exact String.lt_trans hlt (h.1 k' hk')
    · rename_i hnlt
      split
      · rename_i heq
        subst heq
        rw [List.map_cons, List.pairwise_cons]
        exact h
      · rename_i hne
        have hlt : k < key := by
          by_contra hnot
          exact hne (String.le_antisymm (String.not_lt.1 hnot) (String.not_lt.1 hnlt))
        rw [List.map_cons, List.pairwise_cons]
        refine ⟨fun k' hk' => ?_, ih h.2⟩
        obtain ⟨m, hm, rfl⟩ := List.mem_map.1 hk'
        rcases mem_insert hm with rfl | hm
        · exact hlt
        · exact h.1 _ (List.mem_map_of_mem hm)

theorem Fits.insertAll {depth : Nat} {done : Members} {ms : List (String × Json)}
    (hsorted : (done.map Prod.fst).Pairwise (· < ·)) (hdone : ∀ m ∈ done, Fits depth m.2)
    (h : ∀ m ∈ ms, Fits depth m.2) : Fits (depth + 1) (.obj (insertAll done ms)) := by
  induction ms generalizing done with
  | nil => exact .obj hsorted hdone
  | cons m ms ih =>
    refine ih (insert_sorted m.2 hsorted) ?_ (fun p hp => h p (List.mem_cons_of_mem _ hp))
    intro p hp
    rcases mem_insert hp with rfl | hp
    · exact h m List.mem_cons_self
    · exact hdone p hp

/-- **An object that is put together** fits when its members do. -/
theorem Fits.ofMembers {depth : Nat} {ms : List (String × Json)} (h : ∀ m ∈ ms, Fits depth m.2) :
    Fits (depth + 1) (ofMembers ms) := by
  rw [ofMembers_eq]
  exact .insertAll List.Pairwise.nil (List.forall_mem_nil _) h

/-! ## Writing -/

/-- A character that a value may begin with. -/
def Opens (c : Char) : Prop :=
  c.isDigit = true ∨ c ∈ ['-', '"', '[', '{', 't', 'f', 'n']

instance (c : Char) : Decidable (Opens c) :=
  inferInstanceAs (Decidable (_ ∨ _))

/-- **How a value begins** that is written. -/
theorem exists_chars {v : Json} (h : FloatFree v) :
    ∃ c cs, v.chars = c :: cs ∧ Opens c ∧ (c = 'n' → v = .null) := by
  cases h with
  | null => exact ⟨'n', _, rfl, by decide, fun _ => rfl⟩
  | bool b => cases b <;> exact ⟨_, _, rfl, by decide, nofun⟩
  | int n =>
    cases n with
    | ofNat n =>
      obtain ⟨c, digits, hdecimal, hc⟩ := Literal.exists_decimal n
      exact ⟨c, digits, hdecimal, .inl hc, fun heq => absurd heq (ne_of_isDigit hc rfl)⟩
    | negSucc n => exact ⟨'-', _, rfl, by decide, nofun⟩
  | str s => exact ⟨'"', _, rfl, by decide, nofun⟩
  | @arr items => cases items <;> exact ⟨'[', _, rfl, by decide, nofun⟩
  | @obj members => cases members <;> exact ⟨'{', _, rfl, by decide, nofun⟩

/-- A value does not begin with a blank or a mark. -/
theorem Opens.ne {c d : Char} (h : Opens c)
    (hd : d ∈ [' ', '\n', '\t', '\r', ']', '}', ',', ':']) : c ≠ d := by
  rcases h with h | h
  · have hmarks : [' ', '\n', '\t', '\r', ']', '}', ',', ':'].all (!·.isDigit) = true := by decide
    have hdigit := List.all_eq_true.1 hmarks d hd
    exact ne_of_isDigit h (by simpa using hdigit)
  · have hmarks : (['-', '"', '[', '{', 't', 'f', 'n'].all fun c =>
        [' ', '\n', '\t', '\r', ']', '}', ',', ':'].all (c != ·)) = true := by decide
    have hother := List.all_eq_true.1 (List.all_eq_true.1 hmarks c h) d hd
    simpa using hother

/-- Nothing blank stands in front of a value. -/
theorem skipBlank_opens {c : Char} (h : Opens c) (s : Symbols) :
    skipBlank (some c :: s) = some c :: s := by
  rw [skipBlank.eq_def]
  split
  case h_5 => rfl
  all_goals
    rename_i heq
    exact absurd (Option.some.inj (List.cons.inj heq).1) (h.ne (by decide))

/-- Members behind the first begin with a comma, or the object ends. -/
theorem ends_memberChars (members : Members) (rest : Symbols) :
    Ends (taken (memberChars members) ++ rest) := by
  cases members with
  | nil => exact .brace _
  | cons m members => exact .comma _

/-! ## Reading -/

/-- **A value that is read back** from what is written for it, by a reader that may open so many
brackets and make two calls for every character. -/
def ReadsBack (depth : Nat) (v : Json) : Prop :=
  ∀ (fuel : Nat) (rest : Symbols), Ends rest → 2 * v.chars.length ≤ fuel →
    value fuel depth (taken v.chars ++ rest) = some (v, rest)

/-- The items of an array are read one after the other, up to its end. -/
theorem items_chars {depth : Nat} {v : Json} {vs : List Json} (rest : Symbols)
    (h : ∀ w ∈ v :: vs, ReadsBack depth w) {fuel : Nat}
    (hfuel : 2 * (v.chars ++ itemChars vs).length ≤ fuel) :
    items fuel depth (taken (v.chars ++ itemChars vs) ++ rest) = some (v :: vs, rest) := by
  induction vs generalizing v fuel with
  | nil =>
    obtain ⟨fuel, rfl⟩ : ∃ n, fuel = n + 1 := ⟨fuel - 1, by simp [itemChars] at hfuel; omega⟩
    have hv := h v List.mem_cons_self fuel (some ']' :: rest) (.bracket rest)
      (by simp [itemChars] at hfuel; omega)
    rw [taken_append, List.append_assoc, items]
    show (value fuel depth (taken v.chars ++ some ']' :: rest)).bind _ = _
    rw [hv]
    rfl
  | cons w vs ih =>
    have hlength : (v.chars ++ itemChars (w :: vs)).length
        = v.chars.length + (1 + (w.chars ++ itemChars vs).length) := by
      simp [itemChars]
      omega
    rw [hlength] at hfuel
    obtain ⟨fuel, rfl⟩ : ∃ n, fuel = n + 1 := ⟨fuel - 1, by omega⟩
    have hv := h v List.mem_cons_self fuel
      (some ',' :: (taken (w.chars ++ itemChars vs) ++ rest)) (.comma _) (by omega)
    have hrest := ih (fun u hu => h u (List.mem_cons_of_mem _ hu))
      (show 2 * (w.chars ++ itemChars vs).length ≤ fuel by omega)
    rw [taken_append, List.append_assoc, items]
    show (value fuel depth
      (taken v.chars ++ some ',' :: (taken (w.chars ++ itemChars vs) ++ rest))).bind _ = _
    rw [hv]
    show ((items fuel depth (taken (w.chars ++ itemChars vs) ++ rest)).bind _) = _
    rw [hrest]
    rfl

/-- A member of an object is read, and what follows it is read from there. -/
theorem members_member {depth fuel : Nat} (k : String) {v : Json} (h : ReadsBack depth v)
    (hfuel : 2 * v.chars.length ≤ fuel) {more : Symbols} (hmore : Ends more) :
    members (fuel + 1) depth (taken (quote k) ++ some ':' :: (taken v.chars ++ more))
      = (match skipBlank more with
        | some ',' :: rest => do
          let (ms, rest) ← members fuel depth rest
          return ((k, v) :: ms, rest)
        | some '}' :: rest => return ([(k, v)], rest)
        | _ => none) := by
  have hkey : string (skipBlank (taken (quote k) ++ some ':' :: (taken v.chars ++ more)))
      = some (k, some ':' :: (taken v.chars ++ more)) := string_quote k _
  rw [members, hkey]
  show (value fuel depth (taken v.chars ++ more)).bind _ = _
  rw [h fuel more hmore hfuel]
  rfl

/-- The members of an object are read one after the other, up to its end. -/
theorem members_chars {depth : Nat} {k : String} {v : Json} {ms : Members} (rest : Symbols)
    (h : ∀ m ∈ (k, v) :: ms, ReadsBack depth m.2) {fuel : Nat}
    (hfuel : 2 * (quote k ++ ':' :: (v.chars ++ memberChars ms)).length ≤ fuel) :
    members fuel depth (taken (quote k ++ ':' :: (v.chars ++ memberChars ms)) ++ rest)
      = some ((k, v) :: ms, rest) := by
  have hsplit (k : String) (v : Json) (ms : Members) :
      taken (quote k ++ ':' :: (v.chars ++ memberChars ms)) ++ rest
        = taken (quote k) ++ some ':' :: (taken v.chars ++ (taken (memberChars ms) ++ rest)) := by
    simp
  induction ms generalizing k v fuel with
  | nil =>
    simp only [List.length_append, List.length_cons] at hfuel
    obtain ⟨fuel, rfl⟩ : ∃ n, fuel = n + 1 := ⟨fuel - 1, by omega⟩
    have hv : ReadsBack depth v := h (k, v) List.mem_cons_self
    rw [hsplit, members_member k hv (by omega) (ends_memberChars [] rest)]
    rfl
  | cons m ms ih =>
    obtain ⟨l, w⟩ := m
    have hlength : (memberChars ((l, w) :: ms)).length
        = (quote l ++ ':' :: (w.chars ++ memberChars ms)).length + 1 := by
      simp [memberChars]
    simp only [List.length_append, List.length_cons, hlength] at hfuel
    obtain ⟨fuel, rfl⟩ : ∃ n, fuel = n + 1 := ⟨fuel - 1, by omega⟩
    have hless : 2 * (quote l ++ ':' :: (w.chars ++ memberChars ms)).length ≤ fuel := by
      simp only [List.length_append, List.length_cons]
      omega
    have hrest := ih (fun p hp => h p (List.mem_cons_of_mem _ hp)) hless
    have hv : ReadsBack depth v := h (k, v) List.mem_cons_self
    rw [hsplit, members_member k hv (by omega) (ends_memberChars ((l, w) :: ms) rest)]
    show (members fuel depth (taken (quote l ++ ':' :: (w.chars ++ memberChars ms)) ++ rest)).bind _
      = _
    rw [hrest]
    rfl

/-- A number is scanned and valued. -/
theorem value_number {c : Char} (h : c.isDigit = true ∨ c = '-') (fuel depth : Nat) (s : Symbols) :
    value (fuel + 1) depth (some c :: s)
      = (Literal.scan (some c :: s)).bind fun (l, rest) => l.value?.map fun v => (v, rest) := by
  have hopens : Opens c := h.imp_right fun heq => by rw [heq]; decide
  have other {d : Char} {s' : Symbols} (heq : some c :: s = some d :: s')
      (hd : d.isDigit = false) (hminus : d ≠ '-') : False := by
    obtain rfl := Option.some.inj (List.cons.inj heq).1
    rcases h with h | h
    · rw [h] at hd
      cases hd
    · exact hminus h
  rw [value, skipBlank_opens hopens]
  split
  case h_7 =>
    cases Literal.scan (some c :: s) with
    | none => rfl
    | some found => cases hvalue : found.1.value? <;> simp [hvalue]
  -- the others begin with a letter or a mark
  all_goals
    rename_i heq
    exact (other heq rfl (by decide)).elim

/-- An array behind its opening bracket. -/
def arrayTail (fuel depth : Nat) (s : Symbols) : Option (Json × Symbols) :=
  match skipBlank s with
  | some ']' :: after => some (.arr [], after)
  | _ => (items fuel depth s).map fun (vs, after) => (.arr vs, after)

/-- An array with a first item is read item by item. -/
theorem value_array {c : Char} (h : Opens c) (fuel depth : Nat) (s : Symbols) :
    value (fuel + 1) (depth + 1) (some '[' :: some c :: s)
      = (items fuel depth (some c :: s)).map fun (vs, after) => (Json.arr vs, after) := by
  show arrayTail fuel depth (some c :: s) = _
  rw [arrayTail, skipBlank_opens h]
  split
  · rename_i heq
    exact absurd (Option.some.inj (List.cons.inj heq).1) (h.ne (by decide))
  · rfl

/-- A word is dropped from a text that begins with it. -/
theorem dropWord_taken (word : String) (rest : Symbols) :
    dropWord word (taken word.toList ++ rest) = some rest :=
  List.isPrefixOf?_eq_some_iff_append_eq.2 rfl

/-- **An integer is read back.** -/
theorem readsBack_int {depth : Nat} {n : Int} (hn : InRange n) : ReadsBack depth (.int n) := by
  intro fuel rest hrest hfuel
  have hbegins : ∃ c cs, signedDecimal n = c :: cs ∧ (c.isDigit = true ∨ c = '-') := by
    cases n with
    | ofNat n =>
      obtain ⟨c, digits, hdecimal, hc⟩ := Literal.exists_decimal n
      exact ⟨c, digits, hdecimal, .inl hc⟩
    | negSucc n => exact ⟨'-', _, rfl, .inr rfl⟩
  obtain ⟨c, cs, hchars, hc⟩ := hbegins
  have hchars' : (Json.int n).chars = c :: cs := hchars
  obtain ⟨l, hscan, hvalue⟩ := Literal.scan_integer hn hrest
  rw [hchars] at hscan
  rw [hchars'] at hfuel ⊢
  obtain ⟨fuel, rfl⟩ : ∃ n, fuel = n + 1 := ⟨fuel - 1, by simp at hfuel; omega⟩
  have hscan' : Literal.scan (some c :: (taken cs ++ rest)) = some (l, rest) := hscan
  show value (fuel + 1) depth (some c :: (taken cs ++ rest)) = _
  rw [value_number hc, hscan']
  simp [hvalue]

/-- **An object is read** as what its members put together. -/
theorem object_chars {depth fuel : Nat} {ms : Members} (h : ∀ m ∈ ms, ReadsBack depth m.2)
    (hfuel : 2 * (Json.obj ms).chars.length ≤ fuel) (rest : Symbols) :
    value fuel (depth + 1) (taken (Json.obj ms).chars ++ rest) = some (ofMembers ms, rest) := by
  cases ms with
  | nil =>
    obtain ⟨fuel, rfl⟩ : ∃ n, fuel = n + 1 := ⟨fuel - 1, by simp [chars] at hfuel; omega⟩
    rfl
  | cons m ms =>
    obtain ⟨k, v⟩ := m
    simp only [chars, List.length_cons] at hfuel
    obtain ⟨fuel, rfl⟩ : ∃ n, fuel = n + 1 := ⟨fuel - 1, by omega⟩
    have hread := members_chars rest h (show 2 * _ ≤ fuel by omega)
    show (Json.members fuel depth
      (taken (quote k ++ ':' :: (v.chars ++ memberChars ms)) ++ rest)).map _ = _
    rw [hread]
    rfl

/-- **A value that fits is read back,** if it holds no floating-point number. -/
theorem readsBack {depth : Nat} {v : Json} (h : Fits depth v) (hfree : FloatFree v) :
    ReadsBack depth v := by
  induction h with
  | int hn => exact readsBack_int hn
  | float x => cases hfree
  | null =>
    intro fuel rest _ hfuel
    obtain ⟨fuel, rfl⟩ : ∃ n, fuel = n + 1 := ⟨fuel - 1, by simp [chars] at hfuel; omega⟩
    show (dropWord "ull" (taken "ull".toList ++ rest)).map _ = _
    rw [dropWord_taken]
    rfl
  | bool b =>
    intro fuel rest _ hfuel
    cases b with
    | true =>
      obtain ⟨fuel, rfl⟩ : ∃ n, fuel = n + 1 := ⟨fuel - 1, by simp [chars] at hfuel; omega⟩
      show (dropWord "rue" (taken "rue".toList ++ rest)).map _ = _
      rw [dropWord_taken]
      rfl
    | false =>
      obtain ⟨fuel, rfl⟩ : ∃ n, fuel = n + 1 := ⟨fuel - 1, by simp [chars] at hfuel; omega⟩
      show (dropWord "alse" (taken "alse".toList ++ rest)).map _ = _
      rw [dropWord_taken]
      rfl
  | str s =>
    intro fuel rest _ hfuel
    obtain ⟨fuel, rfl⟩ : ∃ n, fuel = n + 1 := ⟨fuel - 1, by simp [chars, quote] at hfuel; omega⟩
    show (string (taken (quote s) ++ rest)).map _ = _
    rw [string_quote]
    rfl
  | @arr depth items h ih =>
    intro fuel rest _ hfuel
    cases hfree with
    | arr hfree =>
      have hitems : ∀ w ∈ items, ReadsBack depth w := fun w hw => ih w hw (hfree w hw)
      cases items with
      | nil =>
        obtain ⟨fuel, rfl⟩ : ∃ n, fuel = n + 1 := ⟨fuel - 1, by simp [chars] at hfuel; omega⟩
        rfl
      | cons v vs =>
        obtain ⟨c, cs, hv, hopens, -⟩ := exists_chars (hfree v List.mem_cons_self)
        simp only [chars, List.length_cons] at hfuel
        obtain ⟨fuel, rfl⟩ : ∃ n, fuel = n + 1 := ⟨fuel - 1, by omega⟩
        have hread := items_chars rest hitems (show 2 * _ ≤ fuel by omega)
        rw [hv] at hread
        show value (fuel + 1) (depth + 1)
          (some '[' :: (taken (v.chars ++ itemChars vs) ++ rest)) = _
        rw [hv]
        exact (value_array hopens fuel depth _).trans (congrArg _ hread)
  | @obj depth members hsorted h ih =>
    intro fuel rest _ hfuel
    cases hfree with
    | obj hfree =>
      rw [object_chars (fun m hm => ih m hm (hfree m hm)) hfuel, ofMembers_sorted hsorted]

/-- **A reader of any value** reads back what fits. -/
theorem any_chars {depth : Nat} {v : Json} (h : Fits depth v) (hfree : FloatFree v) {rest : Symbols}
    (hrest : Ends rest) : Reader.any depth (taken v.chars ++ rest) = some (v, rest) := by
  refine readsBack h hfree _ rest hrest ?_
  rw [enough, List.length_append, List.length_map]
  omega

/-- **A text that is written** is read from its octets. -/
theorem Reader.run_render {α : Type} {read : Reader α} {v : Json} {a : α}
    (h : read maxDepth (taken v.chars) = some (a, [])) :
    read.run (Text.Utf8.decode (Text.Utf8.encode v.render)) = some a := by
  rw [Text.Utf8.decode_encode, render, String.toList_ofList, Reader.run]
  show (read maxDepth (taken v.chars)).bind _ = _
  rw [h]
  rfl

/-! ## What is read -/

section Read

/-- **What a reader can have given** that has made one call and so many more, and where it comes
from. -/
inductive Given (fuel : Nat) (s : Symbols) : Nat → Json → Prop where
  | null {depth : Nat} (more : Symbols) (h : skipBlank s = some 'n' :: more) :
    Given fuel s depth .null
  | bool {depth : Nat} (b : Bool) : Given fuel s depth (.bool b)
  | str {depth : Nat} (t : String) : Given fuel s depth (.str t)
  | emptyArray {depth : Nat} : Given fuel s (depth + 1) (.arr [])
  | array {depth : Nat} {s' rest : Symbols} (vs : List Json)
      (h : items fuel depth s' = some (vs, rest)) : Given fuel s (depth + 1) (.arr vs)
  | emptyObject {depth : Nat} : Given fuel s (depth + 1) (.obj [])
  | object {depth : Nat} {s' rest : Symbols} (ms : List (String × Json))
      (h : members fuel depth s' = some (ms, rest)) : Given fuel s (depth + 1) (ofMembers ms)
  | number {depth : Nat} (l : Literal) (v : Json) (h : l.value? = some v) : Given fuel s depth v

/-- **A value is given** in no other way. -/
theorem given {fuel depth : Nat} {s rest : Symbols} {v : Json}
    (h : value (fuel + 1) depth s = some (v, rest)) : Given fuel s depth v := by
  have word {found : Option Symbols} {w : Json}
      (h : found.map (fun after => (w, after)) = some (v, rest)) : w = v := by
    obtain ⟨_, -, heq⟩ := Option.map_eq_some_iff.1 h
    exact (Prod.mk.inj heq).1
  rw [value] at h
  split at h
  · rename_i more hskip
    obtain rfl := word h
    exact .null more hskip
  · obtain rfl := word h
    exact .bool true
  · obtain rfl := word h
    exact .bool false
  · obtain ⟨⟨t, _⟩, -, heq⟩ := Option.map_eq_some_iff.1 h
    obtain ⟨rfl, -⟩ := Prod.mk.inj heq
    exact .str t
  · split at h
    · cases h
    · split at h
      · obtain ⟨rfl, -⟩ := Prod.mk.inj (Option.some.inj h)
        exact .emptyArray
      · obtain ⟨⟨vs, _⟩, hread, heq⟩ := Option.map_eq_some_iff.1 h
        obtain ⟨rfl, -⟩ := Prod.mk.inj heq
        exact .array vs hread
  · split at h
    · cases h
    · split at h
      · obtain ⟨rfl, -⟩ := Prod.mk.inj (Option.some.inj h)
        exact .emptyObject
      · obtain ⟨⟨ms, _⟩, hread, heq⟩ := Option.map_eq_some_iff.1 h
        obtain ⟨rfl, -⟩ := Prod.mk.inj heq
        exact .object ms hread
  · obtain ⟨⟨l, _⟩, -, h⟩ := Option.bind_eq_some_iff.1 h
    obtain ⟨w, hw, h⟩ := Option.bind_eq_some_iff.1 h
    obtain ⟨rfl, -⟩ := Prod.mk.inj (Option.some.inj h)
    exact .number l w hw

/-- What so many calls make a value is one that fits. -/
def ValueFits (fuel : Nat) : Prop :=
  ∀ {depth : Nat} {s rest : Symbols} {v : Json}, value fuel depth s = some (v, rest) → Fits depth v

/-- What so many calls make the items of an array fits. -/
def ItemsFit (fuel : Nat) : Prop :=
  ∀ {depth : Nat} {s rest : Symbols} {vs : List Json}, items fuel depth s = some (vs, rest) →
    ∀ v ∈ vs, Fits depth v

/-- What so many calls make the members of an object fits. -/
def MembersFit (fuel : Nat) : Prop :=
  ∀ {depth : Nat} {s rest : Symbols} {ms : List (String × Json)},
    members fuel depth s = some (ms, rest) → ∀ m ∈ ms, Fits depth m.2

variable {fuel : Nat}

theorem valueFits_succ (hitems : ItemsFit fuel) (hmembers : MembersFit fuel) :
    ValueFits (fuel + 1) := by
  intro depth s rest v h
  cases given h with
  | null => exact .null
  | bool b => exact .bool b
  | str t => exact .str t
  | emptyArray => exact .arr nofun
  | array vs hread => exact .arr (hitems hread)
  | emptyObject => exact .obj List.Pairwise.nil nofun
  | object ms hread => exact Fits.ofMembers (hmembers hread)
  | number l v hvalue =>
    rcases Literal.value?_cases hvalue with ⟨n, rfl, hn⟩ | ⟨x, rfl⟩
    · exact .int hn
    · exact .float x

theorem itemsFit_succ (hvalue : ValueFits fuel) (hitems : ItemsFit fuel) : ItemsFit (fuel + 1) := by
  intro depth s rest vs h
  rw [items] at h
  obtain ⟨⟨v, s'⟩, hv, h⟩ := Option.bind_eq_some_iff.1 h
  dsimp only at h
  split at h
  · obtain ⟨⟨ws, after⟩, hws, h⟩ := Option.bind_eq_some_iff.1 h
    obtain ⟨rfl, -⟩ := Prod.mk.inj (Option.some.inj h)
    exact List.forall_mem_cons.2 ⟨hvalue hv, hitems hws⟩
  · obtain ⟨rfl, -⟩ := Prod.mk.inj (Option.some.inj h)
    exact List.forall_mem_cons.2 ⟨hvalue hv, nofun⟩
  · cases h

theorem membersFit_succ (hvalue : ValueFits fuel) (hmembers : MembersFit fuel) :
    MembersFit (fuel + 1) := by
  intro depth s rest ms h
  rw [members] at h
  obtain ⟨⟨k, s₁⟩, -, h⟩ := Option.bind_eq_some_iff.1 h
  obtain ⟨s₂, -, h⟩ := Option.bind_eq_some_iff.1 h
  obtain ⟨⟨v, s₃⟩, hv, h⟩ := Option.bind_eq_some_iff.1 h
  dsimp only at h
  split at h
  · obtain ⟨⟨ns, after⟩, hns, h⟩ := Option.bind_eq_some_iff.1 h
    obtain ⟨rfl, -⟩ := Prod.mk.inj (Option.some.inj h)
    exact List.forall_mem_cons.2 ⟨hvalue hv, hmembers hns⟩
  · obtain ⟨rfl, -⟩ := Prod.mk.inj (Option.some.inj h)
    exact List.forall_mem_cons.2 ⟨hvalue hv, nofun⟩
  · cases h

/-- **What is read fits,** however many calls are made. -/
theorem fits_of_calls (fuel : Nat) : ValueFits fuel ∧ ItemsFit fuel ∧ MembersFit fuel := by
  induction fuel with
  | zero => exact ⟨nofun, nofun, nofun⟩
  | succ fuel ih =>
    obtain ⟨hvalue, hitems, hmembers⟩ := ih
    exact ⟨valueFits_succ hitems hmembers, itemsFit_succ hvalue hitems,
      membersFit_succ hvalue hmembers⟩

/-- **A value that is read fits.** -/
theorem fits_of_any {depth : Nat} {s rest : Symbols} {v : Json}
    (h : Reader.any depth s = some (v, rest)) : Fits depth v :=
  (fits_of_calls _).1 h

/-- Only what begins as `null` does is read as null. -/
theorem null_of_any {depth : Nat} {s rest : Symbols} (h : Reader.any depth s = some (.null, rest)) :
    ∃ more, skipBlank s = some 'n' :: more := by
  have hgiven : Given (2 * s.length + 1) s depth .null := given h
  generalize hnull : Json.null = v at hgiven
  cases hgiven with
  | null more hskip => exact ⟨more, hskip⟩
  | number l v hvalue =>
    subst hnull
    rcases Literal.value?_cases hvalue with ⟨n, hn, -⟩ | ⟨x, hx⟩
    · cases hn
    · cases hx
  | _ => cases hnull

end Read

end DeviceProvisioning.Json
