/-!
# Cutting text at a mark

Topics, queries and identifiers are cut at single characters and compared with fixed
fragments.  Everything here works on lists of characters; `cutAt` is the cut at the first
mark, and `occursIn` asks for a fragment anywhere in a text.
-/

namespace DeviceProvisioning.Text

/-- The text before the first `mark` and the text after it, if there is one. -/
def cutAt (mark : Char) : List Char → Option (List Char × List Char)
  | [] => none
  | c :: rest =>
    if c = mark then some ([], rest)
    else (cutAt mark rest).map fun (before, after) => (c :: before, after)

/-- Whether `fragment` stands somewhere in the text. -/
def occursIn (fragment : List Char) : List Char → Bool
  | [] => fragment.isEmpty
  | c :: rest => fragment.isPrefixOf (c :: rest) || occursIn fragment rest

/-- Whether `fragment` stands somewhere in `text`. -/
def contains (text fragment : String) : Bool :=
  occursIn fragment.toList text.toList

/-- **The cut at a mark loses only the mark,** and nothing before it is a mark. -/
theorem cutAt_eq_some_iff {mark : Char} {cs before after : List Char} :
    cutAt mark cs = some (before, after) ↔ cs = before ++ mark :: after ∧ mark ∉ before := by
  induction cs generalizing before with
  | nil => simp [cutAt]
  | cons c rest ih =>
    unfold cutAt
    split
    · rename_i h
      subst h
      cases before with
      | nil => simp [eq_comm]
      | cons b bs =>
        simp only [List.cons_append, List.cons.injEq, List.mem_cons, not_or, reduceCtorEq,
          Option.some.injEq, Prod.mk.injEq, false_and, false_iff, not_and, Decidable.not_not]
        exact fun h hn => absurd h.1 hn
    · rename_i h
      cases before with
      | nil => simp [h]
      | cons b bs =>
        simp only [Option.map_eq_some_iff, Prod.exists, Prod.mk.injEq, List.cons.injEq,
          List.cons_append, List.mem_cons, not_or]
        constructor
        · rintro ⟨b', a', hcut, ⟨rfl, rfl⟩, rfl⟩
          have := ih.mp hcut
          exact ⟨⟨rfl, this.1⟩, ⟨fun e => h e.symm, this.2⟩⟩
        · rintro ⟨⟨rfl, hrest⟩, _, hbs⟩
          exact ⟨bs, after, ih.mpr ⟨hrest, hbs⟩, ⟨rfl, rfl⟩, rfl⟩

end DeviceProvisioning.Text
