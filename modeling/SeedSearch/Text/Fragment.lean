namespace SeedSearch.Text

def occurs (part : List Char) : List Char → Bool
  | [] => part.isEmpty
  | c :: rest => part.isPrefixOf (c :: rest) || occurs part rest

def isFragment (part whole : String) : Bool := occurs part.toList whole.toList

theorem occurs_append (part before after : List Char) : occurs part (before ++ part ++ after) = true := by
  induction before with
  | nil =>
    cases h : part ++ after with
    | nil => simp_all [occurs]
    | cons c rest =>
      have : part.isPrefixOf (c :: rest) := by
        rw [← h, List.isPrefixOf_iff_prefix]; exact List.prefix_append part after
      simp_all [occurs]
  | cons c before ih => simp_all [occurs]

theorem exists_of_occurs {part whole : List Char} (h : occurs part whole = true) :
    ∃ before after, whole = before ++ part ++ after := by
  induction whole with
  | nil => exact ⟨[], [], by simpa [occurs] using h⟩
  | cons c rest ih =>
    rcases Bool.or_eq_true _ _ ▸ h with here | later
    · obtain ⟨after, eq⟩ := List.isPrefixOf_iff_prefix.mp here
      exact ⟨[], after, by simpa using eq.symm⟩
    · obtain ⟨before, after, eq⟩ := ih later
      exact ⟨c :: before, after, by simp [eq]⟩

theorem occurs_iff {part whole : List Char} :
    occurs part whole = true ↔ ∃ before after, whole = before ++ part ++ after :=
  ⟨exists_of_occurs, fun ⟨before, after, eq⟩ => eq ▸ occurs_append part before after⟩

theorem isFragment_trans {a b c : String} (first : isFragment a b = true) (second : isFragment b c = true) :
    isFragment a c = true := by
  obtain ⟨before, after, inner⟩ := occurs_iff.mp first
  obtain ⟨front, behind, outer⟩ := occurs_iff.mp second
  exact occurs_iff.mpr ⟨front ++ before, after ++ behind, by simp [outer, inner]⟩

end SeedSearch.Text
