import Solr.Proofs.Clause.Values

/-! What ranges are read as. No end of a range runs on into the other one, whatever its text
holds, and ranges of dates differ from other ranges in the present moment alone. -/
namespace Solr

def DateTerm.reading : DateTerm → Clause.Reading
  | .now => .bare ['N', 'O', 'W']
  | .any => .bare ['*']
  | .value v => v.markedReading ["NOW", "*"]

/-- The same term in a range of dates. -/
def Term.dated : Term → DateTerm
  | .any => .any
  | .value v => .value v

namespace Range

def dated (r : Range Term) : Range DateTerm :=
  ⟨r.fromIncluded, r.lower.map Term.dated, r.toIncluded, r.upper.map Term.dated⟩

variable {τ : Type}

/-- An absent end is unbounded, which is a bare star. -/
def endReading (read : τ → Clause.Reading) : Option τ → Clause.Reading
  | none => .bare ['*']
  | some a => read a

def reading (read : τ → Clause.Reading) (r : Range τ) : Clause.RangeReading :=
  ⟨r.fromIncluded, endReading read r.lower, r.toIncluded, endReading read r.upper⟩

end Range

namespace Clause

theorem brackets_apart : ∀ d ∈ brackets, ¬ NumeralChar d := by
  simp [brackets, NumeralChar]

theorem spells_star : Spells brackets ['*'] (.bare ['*']) :=
  .bare (by simp) (by simp [Stops, brackets, Text.isWhiteSpace])

theorem spells_now : Spells brackets ['N', 'O', 'W'] (.bare ['N', 'O', 'W']) :=
  .bare (by simp) (by simp [Stops, brackets, Text.isWhiteSpace])

theorem spells_dateTerm (t : DateTerm) : Spells brackets t.text t.reading := by
  cases t with
  | now => exact spells_now
  | any => exact spells_star
  | value v =>
    refine spells_markedText ["NOW", "*"] v (by decide) ?_ brackets_apart
    simpa using And.intro spells_now spells_star

theorem spellsRange_text {τ : Type} {text : τ → List Char} {read : τ → Reading}
    (spells : ∀ a, Spells brackets (text a) (read a)) (r : Range τ) :
    SpellsRange (r.text text) (r.reading read) := by
  have bound (b : Option τ) : Spells brackets (Range.endText text b) (Range.endReading read b) := by
    cases b with
    | none => exact spells_star
    | some a => exact spells a
  exact .between r.fromIncluded r.toIncluded (bound r.lower) (bound r.upper)

theorem spellsRange_iff {τ : Type} {text : τ → List Char} {read : τ → Reading}
    (spells : ∀ a, Spells brackets (text a) (read a)) (r : Range τ) (x : RangeReading) :
    SpellsRange (r.text text) x ↔ x = r.reading read :=
  ⟨fun other => other.unique (spellsRange_text spells r),
    fun same => same ▸ spellsRange_text spells r⟩

theorem spells_boundTerm (t : Term) : Spells brackets t.text t.reading :=
  spells_term t brackets_apart spells_star

theorem dateTerm_reading_eq_star_iff (t : DateTerm) :
    t.reading = .bare ['*'] ↔ t = .any ∨ t = .value (.text "*") := by
  cases t with
  | now => simp [DateTerm.reading]
  | any => simp [DateTerm.reading]
  | value v =>
    simpa [DateTerm.reading] using
      markedReading_eq_bare_iff v ["NOW", "*"] "*" (c := '*') (by decide) (by decide)

theorem dateTerm_reading_eq_now_iff (t : DateTerm) :
    t.reading = .bare ['N', 'O', 'W'] ↔ t = .now ∨ t = .value (.text "NOW") := by
  cases t with
  | now => simp [DateTerm.reading]
  | any => simp [DateTerm.reading]
  | value v =>
    simpa [DateTerm.reading] using
      markedReading_eq_bare_iff v ["NOW", "*"] "NOW" (c := 'O') (by decide) (by decide)

theorem term_reading_ne_now (t : Term) : t.reading ≠ .bare ['N', 'O', 'W'] := by
  cases t with
  | any => simp [Term.reading]
  | value v =>
    simpa [Term.reading] using
      markedReading_eq_bare_iff v ["*"] "NOW" (c := 'O') (by decide) (by decide)

/-- Only the text of the present moment is written otherwise among dates. -/
theorem dated_text {t : Term} (other : t ≠ .value (.text "NOW")) : t.dated.text = t.text := by
  cases t with
  | any => rfl
  | value v =>
    have notNow : v.literal ≠ .text now := by
      intro literal
      exact other (by rw [(literal_eq_text_iff (by decide)).mp literal]; rfl)
    change markedText [now, wildcard] v = markedText [wildcard] v
    unfold markedText
    cases literal : v.literal with
    | number numeral => rfl
    | text s =>
      have different : s ≠ now := fun same => notNow (same ▸ literal)
      simp [different]

theorem dated_reading_now :
    (Term.value (.text "NOW")).dated.reading ≠ (Term.value (.text "NOW")).reading := by
  intro same
  refine term_reading_ne_now (.value (.text "NOW")) (same ▸ ?_)
  exact (dateTerm_reading_eq_now_iff _).mpr (.inr rfl)

/-- The mark for the present moment is what tells ranges of dates from other ranges. -/
theorem within_eq_withinDates_iff (f : Field) (r : Range Term) :
    within f r = withinDates f r.dated ↔
      r.lower ≠ some (.value (.text "NOW")) ∧ r.upper ≠ some (.value (.text "NOW")) := by
  constructor
  · intro same
    have texts : r.text Term.text = r.dated.text DateTerm.text := by
      simpa [within, withinDates, about] using congrArg String.toList same
    have readings : r.reading Term.reading = r.dated.reading DateTerm.reading :=
      (spellsRange_iff spells_dateTerm r.dated _).mp
        (texts ▸ spellsRange_text spells_boundTerm r)
    simp only [Range.reading, Clause.RangeReading.mk.injEq] at readings
    obtain ⟨-, lower, -, upper⟩ := readings
    constructor
    · intro now
      rw [Range.dated, now] at lower
      exact dated_reading_now lower.symm
    · intro now
      rw [Range.dated, now] at upper
      exact dated_reading_now upper.symm
  · rintro ⟨lower, upper⟩
    have bound (b : Option Term) (other : b ≠ some (.value (.text "NOW"))) :
        Range.endText Term.text b = Range.endText DateTerm.text (b.map Term.dated) := by
      cases b with
      | none => rfl
      | some t => exact (dated_text fun now => other (congrArg some now)).symm
    unfold within withinDates Range.text
    rw [bound r.lower lower, bound r.upper upper]
    rfl

/-- The text after the colon can be read in one way only: as the kinds of the two ends and
the two ends as they were given. A bare star is an absent end, the mark, or the text of one
star; the present moment is bare among dates, as the mark or as its text; a numeral is as it
is; any other text is within quotes and without its backslashes. Where no end is the text of
the present moment, both kinds of range are written alike. -/
theorem ranges_read_uniquely (f : Field) (r : Range Term) (q : Range DateTerm) :
    (∃ s, (within f r).toList = f.name.toList ++ ':' :: s ∧
      ∀ x, SpellsRange s x ↔ x = r.reading Term.reading) ∧
    (∃ s, (withinDates f q).toList = f.name.toList ++ ':' :: s ∧
      ∀ x, SpellsRange s x ↔ x = q.reading DateTerm.reading) ∧
    (∀ b, Range.endReading Term.reading b = .bare ['*'] ↔
      b = none ∨ b = some .any ∨ b = some (.value (.text "*"))) ∧
    (∀ b, Range.endReading DateTerm.reading b = .bare ['*'] ↔
      b = none ∨ b = some .any ∨ b = some (.value (.text "*"))) ∧
    (∀ b, Range.endReading Term.reading b ≠ .bare ['N', 'O', 'W']) ∧
    (∀ b, Range.endReading DateTerm.reading b = .bare ['N', 'O', 'W'] ↔
      b = some .now ∨ b = some (.value (.text "NOW"))) ∧
    (within f r = withinDates f r.dated ↔
      r.lower ≠ some (.value (.text "NOW")) ∧ r.upper ≠ some (.value (.text "NOW"))) := by
  refine ⟨⟨_, by simp [within, about], spellsRange_iff spells_boundTerm r⟩,
    ⟨_, by simp [withinDates, about], spellsRange_iff spells_dateTerm q⟩, ?_, ?_, ?_, ?_,
    within_eq_withinDates_iff f r⟩
  · intro b
    cases b with
    | none => simp [Range.endReading]
    | some t => simpa [Range.endReading] using term_reading_eq_star_iff t
  · intro b
    cases b with
    | none => simp [Range.endReading]
    | some t => simpa [Range.endReading] using dateTerm_reading_eq_star_iff t
  · intro b
    cases b with
    | none => simp [Range.endReading]
    | some t => exact term_reading_ne_now t
  · intro b
    cases b with
    | none => simp [Range.endReading]
    | some t => simpa [Range.endReading] using dateTerm_reading_eq_now_iff t

end Clause
end Solr
