import Solr.Proofs.Clause.Grammar
import Solr.Proofs.Text.Numerals

/-! What the values of clauses are read as. Whatever a text holds, it stays within its
quotes and loses nothing but its backslashes; only marks and numerals are bare. -/
namespace Solr

/-- A numeral is bare, and a text is quoted. -/
def Literal.reading : Literal → Clause.Reading
  | .text s => .phrase (s.filter (· ≠ '\\'))
  | .number numeral => .bare numeral

def Scalar.reading (v : Scalar) : Clause.Reading :=
  v.literal.reading

/-- A text that spells one of the marks is read as that mark. -/
def Scalar.markedReading (marks : List String) : Scalar → Clause.Reading
  | .text s => if s ∈ marks then .bare s.toList else (Scalar.text s).reading
  | v => v.reading

def Term.reading : Term → Clause.Reading
  | .any => .bare ['*']
  | .value v => v.markedReading ["*"]

namespace Clause

variable {delimiters s : List Char}

theorem quotes_protect (noBackslash : '\\' ∉ s) : Quotes (protect s) s := by
  induction s with
  | nil => exact .nil
  | cons c s ih =>
    have rest := ih fun member => noBackslash (List.mem_cons_of_mem _ member)
    by_cases quote : c = '\"'
    · subst quote
      exact .guarded rest
    · have other : '\\' ≠ c := fun same => noBackslash (same ▸ List.mem_cons_self ..)
      simpa [protect, quote] using Quotes.plain quote other.symm rest

theorem spells_quote (s : List Char) :
    Spells delimiters (quote s) (.phrase (s.filter (· ≠ '\\'))) :=
  .phrase (quotes_protect (by simp))

/-- No white space, quote, parenthesis or bracket stands in a numeral. -/
theorem numeralChar_not_stops {c : Char} (char : NumeralChar c)
    (apart : ∀ d ∈ delimiters, ¬ NumeralChar d) : ¬ Stops delimiters c := by
  rintro (blank | rfl | member)
  · rcases char with digit | letter
    · simp only [Char.isDigit, Bool.and_eq_true, decide_eq_true_eq, ge_iff_le,
        UInt32.le_iff_toNat_le] at digit
      simp only [Text.isWhiteSpace, Bool.or_eq_true, Bool.and_eq_true,
        decide_eq_true_eq] at blank
      have bounds : 48 ≤ c.toNat ∧ c.toNat ≤ 57 := digit
      omega
    · simp only [List.mem_cons, List.not_mem_nil, or_false] at letter
      rcases letter with rfl | rfl | rfl | rfl | rfl | rfl | rfl <;> exact absurd blank (by decide)
  · exact absurd char (by decide)
  · exact apart c member char

theorem spells_numeral {numeral : List Char} (text : NumeralText numeral)
    (apart : ∀ d ∈ delimiters, ¬ NumeralChar d) : Spells delimiters numeral (.bare numeral) :=
  .bare text.notEmpty fun c member => numeralChar_not_stops (text.chars c member) apart

theorem spells_valueText (v : Scalar) (apart : ∀ d ∈ delimiters, ¬ NumeralChar d) :
    Spells delimiters (valueText v) v.reading := by
  unfold valueText Scalar.reading
  cases literal : v.literal with
  | text s => exact spells_quote s
  | number numeral => exact spells_numeral (v.numeralText literal) apart

theorem dash_mem_monthAndDay (d : Date) : '-' ∈ d.monthAndDay := by
  simp [Date.monthAndDay]

/-- The texts of dates and instants hold a dash, as no mark does. -/
theorem literal_eq_text_iff {v : Scalar} {mark : List Char} (plain : '-' ∉ mark) :
    v.literal = .text mark ↔ v = .text (String.ofList mark) := by
  constructor
  · intro same
    cases v with
    | text s => rw [← Literal.text.inj same, String.ofList_toList]
    | date d =>
      rw [← Literal.text.inj same] at plain
      exact absurd (List.mem_append_right _ (dash_mem_monthAndDay d)) plain
    | instant t =>
      rw [← Literal.text.inj same] at plain
      simp [Instant.millisecondText, Date.text, dash_mem_monthAndDay] at plain
    | integer i => cases same
    | single x => cases same
    | double x => cases same
  · rintro rfl
    simp [Scalar.literal]

/-- A value in a place where it may be a mark. -/
theorem spells_markedText (marks : List String) (v : Scalar)
    (plain : ∀ mark ∈ marks, '-' ∉ mark.toList)
    (bare : ∀ mark ∈ marks, Spells delimiters mark.toList (.bare mark.toList))
    (apart : ∀ d ∈ delimiters, ¬ NumeralChar d) :
    Spells delimiters (markedText (marks.map String.toList) v) (v.markedReading marks) := by
  have isMark {s : List Char} (literal : v.literal = .text s)
      (member : s ∈ marks.map String.toList) : v = .text (String.ofList s) := by
    obtain ⟨mark, inMarks, rfl⟩ := List.mem_map.mp member
    exact (literal_eq_text_iff (plain mark inMarks)).mp literal
  have unmarked : markedText (marks.map String.toList) v = valueText v →
      v.markedReading marks = v.reading →
      Spells delimiters (markedText (marks.map String.toList) v) (v.markedReading marks) := by
    intro text reading
    rw [text, reading]
    exact spells_valueText v apart
  cases literal : v.literal with
  | number numeral =>
    refine unmarked (by simp [markedText, valueText, literal, literalText]) ?_
    cases v <;> first | rfl | cases literal
  | text s =>
    by_cases member : s ∈ marks.map String.toList
    · obtain rfl := isMark literal member
      obtain ⟨mark, inMarks, rfl⟩ := List.mem_map.mp member
      rw [String.ofList_toList] at literal ⊢
      simp only [markedText, literal, if_pos member, Scalar.markedReading, if_pos inMarks]
      exact bare mark inMarks
    · refine unmarked (by simp [markedText, valueText, literal, literalText, member]) ?_
      cases v with
      | text text =>
        have notMark : text ∉ marks := fun inMarks =>
          member (Literal.text.inj literal ▸ List.mem_map_of_mem inMarks)
        simp [Scalar.markedReading, notMark]
      | _ => rfl

theorem spells_term (t : Term) (apart : ∀ d ∈ delimiters, ¬ NumeralChar d)
    (star : Spells delimiters ['*'] (.bare ['*'])) : Spells delimiters t.text t.reading := by
  cases t with
  | any => exact star
  | value v =>
    refine spells_markedText ["*"] v (by decide) ?_ apart
    simpa using star

/-- A numeral is no mark, since a mark has other characters. -/
theorem reading_ne_bare {v : Scalar} {mark : List Char} {c : Char} (member : c ∈ mark)
    (other : ¬ NumeralChar c) : v.reading ≠ .bare mark := by
  unfold Scalar.reading
  cases literal : v.literal with
  | text s => simp [Literal.reading]
  | number numeral =>
    intro same
    obtain rfl := Reading.bare.inj same
    exact other ((v.numeralText literal).chars c member)

theorem markedReading_eq_bare_iff (v : Scalar) (marks : List String) (mark : String) {c : Char}
    (member : c ∈ mark.toList) (other : ¬ NumeralChar c) :
    v.markedReading marks = .bare mark.toList ↔ mark ∈ marks ∧ v = .text mark := by
  cases v with
  | text s =>
    by_cases inMarks : s ∈ marks
    · simp only [Scalar.markedReading, if_pos inMarks, Reading.bare.injEq, String.toList_inj,
        Scalar.text.injEq]
      constructor
      · rintro rfl
        exact ⟨inMarks, rfl⟩
      · exact And.right
    · simp only [Scalar.markedReading, if_neg inMarks, Scalar.text.injEq]
      constructor
      · intro same
        exact absurd same (reading_ne_bare member other)
      · rintro ⟨inMarks', rfl⟩
        exact absurd inMarks' inMarks
  | _ => simpa [Scalar.markedReading] using reading_ne_bare member other

theorem term_reading_eq_star_iff (t : Term) :
    t.reading = .bare ['*'] ↔ t = .any ∨ t = .value (.text "*") := by
  cases t with
  | any => simp [Term.reading]
  | value v =>
    simpa [Term.reading] using
      markedReading_eq_bare_iff v ["*"] "*" (c := '*') (by decide) (by decide)

end Clause
end Solr
