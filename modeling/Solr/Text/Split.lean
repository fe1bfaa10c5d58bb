/-! Splitting text at a separator. -/
namespace Solr.Text

/-- The pieces between the separators; a text without one is a single piece. -/
def splitAt (separator : Char) : List Char → List (List Char)
  | [] => [[]]
  | c :: rest =>
    if c = separator then [] :: splitAt separator rest
    else match splitAt separator rest with
      | [] => [[c]]
      | piece :: others => (c :: piece) :: others

/-- What stands before and after the first separator, if there is one. -/
def splitOnce? (separator : Char) : List Char → Option (List Char × List Char)
  | [] => none
  | c :: rest =>
    if c = separator then some ([], rest)
    else (splitOnce? separator rest).map fun p => (c :: p.1, p.2)

theorem splitAt_ne_nil (separator : Char) (s : List Char) : splitAt separator s ≠ [] := by
  cases s with
  | nil => simp [splitAt]
  | cons c rest =>
    simp only [splitAt]
    split
    · simp
    · split <;> simp

/-- Splitting loses nothing. -/
theorem intercalate_splitAt (separator : Char) (s : List Char) :
    List.intercalate [separator] (splitAt separator s) = s := by
  induction s with
  | nil => rfl
  | cons c rest ih =>
    simp only [splitAt]
    split
    · rename_i same
      subst same
      cases pieces : splitAt c rest with
      | nil => exact absurd pieces (splitAt_ne_nil c rest)
      | cons piece others =>
        rw [pieces] at ih
        simpa [List.intercalate] using ih
    · cases pieces : splitAt separator rest with
      | nil => exact absurd pieces (splitAt_ne_nil separator rest)
      | cons piece others =>
        rw [pieces] at ih
        cases others with
        | nil => simpa [List.intercalate] using ih
        | cons other more => simpa [List.intercalate] using ih

theorem splitOnce?_eq_some_iff {separator : Char} {s before after : List Char} :
    splitOnce? separator s = some (before, after) ↔
      s = before ++ separator :: after ∧ separator ∉ before := by
  induction s generalizing before with
  | nil => simp [splitOnce?]
  | cons c rest ih =>
    by_cases same : c = separator
    · subst same
      cases before with
      | nil => simp [splitOnce?]
      | cons d before => simp [splitOnce?]; grind
    · cases before with
      | nil => simp [splitOnce?, same]
      | cons d before =>
        simp only [splitOnce?, same, if_false, Option.map_eq_some_iff, Prod.mk.injEq,
          List.cons.injEq, Prod.exists]
        constructor
        · rintro ⟨b, a, found, ⟨rfl, rfl⟩, rfl⟩
          obtain ⟨rfl, absent⟩ := ih.mp found
          exact ⟨by simp, by simp [absent, Ne.symm same]⟩
        · rintro ⟨whole, absent⟩
          simp only [List.cons_append, List.cons.injEq] at whole
          obtain ⟨rfl, whole⟩ := whole
          exact ⟨before, after, ih.mpr ⟨whole, fun h => absent (by simp [h])⟩, by simp⟩

end Solr.Text
