/-!
# Tables

The manager and the session keep what is under way in tables: lists of pairs of a key and an
entry.  These are the facts about them that do not depend on what the entries are, and one about
what is found in two lists in a row.
-/

namespace DeviceProvisioning.Table

variable {κ β γ : Type} [DecidableEq κ]

/-- A key that is not in use leaves a table as it is when its entries are dropped. -/
theorem drop_unused {table : List (κ × β)} {key : κ} (h : key ∉ table.map Prod.fst) :
    table.filter (·.1 ≠ key) = table := by
  refine List.filter_eq_self.2 fun p hp => decide_eq_true fun heq => h ?_
  exact List.mem_map.2 ⟨p, hp, heq⟩

/-- What is found is an entry of the table. -/
theorem mem_of_lookup {table : List (κ × β)} {key : κ} {entry : β}
    (h : table.lookup key = some entry) : (key, entry) ∈ table := by
  obtain ⟨earlier, later, rfl, -⟩ := List.lookup_eq_some_iff.1 h
  exact List.mem_append_right _ List.mem_cons_self

/-- Dropping entries leaves the keys different. -/
theorem distinct_drop {table : List (κ × β)} (h : (table.map Prod.fst).Nodup) (key : κ) :
    ((table.filter (·.1 ≠ key)).map Prod.fst).Nodup :=
  h.sublist (List.filter_sublist.map _)

/-- Where the keys are different, every entry is found by its key. -/
theorem lookup_of_mem {table : List (κ × β)} (h : (table.map Prod.fst).Nodup) {p : κ × β}
    (hp : p ∈ table) : table.lookup p.1 = some p.2 := by
  induction table with
  | nil => cases hp
  | cons q table ih =>
    rw [List.map_cons, List.nodup_cons] at h
    rcases List.mem_cons.1 hp with rfl | hp
    · exact List.lookup_cons_self
    · have hne : p.1 ≠ q.1 := fun heq => h.1 (heq ▸ List.mem_map_of_mem hp)
      rw [List.lookup_cons, beq_false_of_ne hne]
      exact ih h.2 hp

/-- Dropping the entries of a key leaves the others to be found. -/
theorem lookup_drop (table : List (κ × β)) (key other : κ) :
    (table.filter (·.1 ≠ key)).lookup other
      = if other = key then none else table.lookup other := by
  induction table with
  | nil => simp
  | cons p table ih =>
    obtain ⟨key', entry⟩ := p
    by_cases hkey : key' = key
    · rw [List.filter_cons_of_neg (by simpa using hkey), ih]
      split
      · rfl
      · rename_i hne
        rw [List.lookup_cons, beq_false_of_ne (hkey ▸ hne)]
    · rw [List.filter_cons_of_pos (by simpa using hkey), List.lookup_cons, List.lookup_cons, ih]
      split
      · rename_i heq
        rw [if_neg ((beq_iff_eq.1 heq) ▸ hkey)]
      · rfl

/-- An entry that is looked up and dropped takes away what it counts for, and no more when the keys
are different. -/
theorem count_lookup [DecidableEq γ] (f : κ × β → γ) {table : List (κ × β)} {key : κ} {entry : β}
    (hl : table.lookup key = some entry) (k : γ) :
    ∃ lost, (table.map f).count k
        = [f (key, entry)].count k + ((table.filter (·.1 ≠ key)).map f).count k + lost ∧
      ((table.map Prod.fst).Nodup → lost = 0) := by
  induction table with
  | nil => cases hl
  | cons p table ih =>
    obtain ⟨key', entry'⟩ := p
    by_cases hkey : key = key'
    · -- a later entry of the same key is dropped as well, and is what gets lost
      subst hkey
      obtain rfl : entry' = entry := by simpa using hl
      have hle : ((table.filter (·.1 ≠ key)).map f).count k ≤ (table.map f).count k :=
        (List.filter_sublist.map f).count_le k
      rw [List.filter_cons_of_neg (by simp), List.map_cons, List.count_cons, List.count_singleton]
      refine ⟨(table.map f).count k - ((table.filter (·.1 ≠ key)).map f).count k, by omega,
        fun hn => ?_⟩
      rw [List.map_cons, List.nodup_cons] at hn
      rw [drop_unused hn.1, Nat.sub_self]
    · rw [List.lookup_cons, beq_false_of_ne hkey] at hl
      obtain ⟨lost, heq, hlost⟩ := ih hl
      rw [List.filter_cons_of_pos (by simpa using Ne.symm hkey), List.map_cons, List.map_cons]
      refine ⟨lost, ?_, fun hn => hlost (List.nodup_cons.1 hn).2⟩
      simp only [List.count_cons] at heq ⊢
      omega

/-- Where the keys are different, dropping those of an entry drops that entry alone. -/
theorem length_drop {table : List (κ × β)} (h : (table.map Prod.fst).Nodup) {key : κ} {entry : β}
    (hl : table.lookup key = some entry) :
    table.length = (table.filter (·.1 ≠ key)).length + 1 := by
  obtain ⟨lost, heq, hlost⟩ := count_lookup (fun _ => ()) hl ()
  rw [hlost h] at heq
  simpa [List.count_eq_length.2, Nat.add_comm] using heq

/-- An entry of two lists in a row is one of the first or of the second. -/
theorem split_of_append {xs ys earlier later : List β} {x : β}
    (h : xs ++ ys = earlier ++ x :: later) :
    (∃ later', xs = earlier ++ x :: later') ∨
      ∃ middle, earlier = xs ++ middle ∧ ys = middle ++ x :: later := by
  rcases List.append_eq_append_iff.1 h with ⟨middle, hearlier, hys⟩ | ⟨middle, hxs, htail⟩
  · exact .inr ⟨middle, hearlier, hys⟩
  · cases middle with
    | nil => exact .inr ⟨[], by rw [hxs, List.append_nil, List.append_nil], htail.symm⟩
    | cons y middle =>
      obtain ⟨rfl, rfl⟩ : x = y ∧ later = middle ++ ys := by simpa using htail
      exact .inl ⟨middle, hxs⟩

end DeviceProvisioning.Table
