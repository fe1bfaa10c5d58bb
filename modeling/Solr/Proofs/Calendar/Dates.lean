import Mathlib.Data.List.Basic
import Solr.Proofs.Deletion
import Solr.Proofs.Text.Cells

/-! The texts of a date: in instants, in deletions and in filters. The first two are the
same; that of filters counts the minus sign as one of four digits, and has no plus sign. -/
namespace Solr

open Text (Cell)

namespace Calendar

theorem daysInMonth_bounds (year : Int) (month : Nat) :
    1 ≤ daysInMonth year month ∧ daysInMonth year month ≤ 31 := by
  unfold daysInMonth
  split
  · split <;> omega
  · split <;> omega

end Calendar

namespace Date

/-- The years whose text in filters is the standard one. -/
def Standard (year : Int) : Prop :=
  year ≤ -1000 ∨ 0 ≤ year ∧ year ≤ 9999

theorem month_lt (d : Date) : d.month < 100 := by
  have := d.valid.2.1
  omega

theorem day_lt (d : Date) : d.day < 100 := by
  have := d.valid.2.2.2
  have := (Calendar.daysInMonth_bounds d.year d.month).2
  omega

def monthAndDayCells : List Cell :=
  [⟨2, ['-']⟩, ⟨2, []⟩]

theorem monthAndDay_eq (d : Date) :
    d.monthAndDay = '-' :: Cell.write monthAndDayCells [d.month, d.day] := by
  simp [monthAndDay, monthAndDayCells, Cell.write]

theorem fit_monthAndDay (d : Date) : Cell.Fit monthAndDayCells [d.month, d.day] :=
  .cons ⟨by decide, d.month_lt⟩ (.cons ⟨by decide, d.day_lt⟩ .nil)

theorem length_monthAndDay (d : Date) : d.monthAndDay.length = 6 := by
  simp [monthAndDay, Text.length_padded_of_lt ⟨Nat.two_pos, d.month_lt⟩,
    Text.length_padded_of_lt ⟨Nat.two_pos, d.day_lt⟩]

theorem monthAndDay_eq_iff (d e : Date) :
    d.monthAndDay = e.monthAndDay ↔ d.month = e.month ∧ d.day = e.day := by
  constructor
  · intro same
    rw [monthAndDay_eq, monthAndDay_eq] at same
    have values := Cell.write_injective d.fit_monthAndDay e.fit_monthAndDay
      (List.cons.inj same).2
    simpa using values
  · rintro ⟨month, day⟩
    rw [monthAndDay, monthAndDay, month, day]

/-- Three digits after a minus sign are four characters, but not four digits. -/
theorem plainYear_eq_yearText_iff (year other : Int) :
    plainYear year = yearText other ↔ year = other ∧ Standard year := by
  have minus : ¬ '-'.isDigit := by decide
  have plus : ¬ '+'.isDigit := by decide
  unfold plainYear yearText Standard
  by_cases here : year < 0
  · rw [if_pos here]
    by_cases plain : 0 ≤ other ∧ other ≤ 9999
    · rw [if_pos plain]
      refine iff_of_false (fun same => Text.padded_ne_cons minus _ same.symm) ?_
      omega
    · rw [if_neg plain]
      by_cases there : other < 0
      · have long : (Text.digits other.natAbs).length ≤ 3 ↔ other.natAbs < 10 ^ 3 :=
          Nat.length_toDigits_le_iff (by decide) (by decide)
        rw [if_pos there, List.cons_inj_right, Text.padded_eq_padded_iff]
        omega
      · rw [if_neg there]
        refine iff_of_false (fun same => absurd (List.cons.inj same).1 (by decide)) ?_
        omega
  · rw [if_neg here]
    by_cases plain : 0 ≤ other ∧ other ≤ 9999
    · rw [if_pos plain, Text.padded_eq_padded_iff]
      omega
    · rw [if_neg plain]
      refine iff_of_false ?_ (by omega)
      by_cases there : other < 0
      · rw [if_pos there]
        exact Text.padded_ne_cons minus _
      · rw [if_neg there]
        exact Text.padded_ne_cons plus _

/-- The text in filters is the standard text of no other date. -/
theorem filterText_eq_text_iff (d e : Date) :
    d.filterText = e.text ↔ d = e ∧ Standard d.year := by
  have wide : d.monthAndDay.length = e.monthAndDay.length := by
    rw [length_monthAndDay, length_monthAndDay]
  have split : d.filterText = e.text ↔
      plainYear d.year = yearText e.year ∧ d.monthAndDay = e.monthAndDay :=
    ⟨fun same => List.append_inj' same wide, fun ⟨year, rest⟩ => congrArg₂ _ year rest⟩
  rw [split, plainYear_eq_yearText_iff, monthAndDay_eq_iff]
  constructor
  · rintro ⟨⟨year, standard⟩, month, day⟩
    obtain ⟨y, m, x, valid⟩ := d
    obtain ⟨y', m', x', valid'⟩ := e
    obtain rfl : y = y' := year
    obtain rfl : m = m' := month
    obtain rfl : x = x' := day
    exact ⟨rfl, standard⟩
  · rintro ⟨rfl, standard⟩
    exact ⟨⟨rfl, standard⟩, rfl, rfl⟩

theorem letter_notMem_text (d : Date) : 'T' ∉ d.text := by
  have digit {width n : Nat} : 'T' ∉ Text.padded width n := by
    intro member
    exact absurd (Text.isDigit_of_mem_padded member) (by decide)
  unfold text yearText monthAndDay
  split <;> simp [digit]
  split <;> simp

end Date

namespace Instant

/-- What stands before the letter that parts a date from a time of day. -/
def datePart (s : List Char) : List Char :=
  s.takeWhile (· ≠ 'T')

theorem datePart_millisecondText (t : Instant) : datePart t.millisecondText = t.date.text := by
  have before : ∀ c ∈ t.date.text, decide (c ≠ 'T') = true := by
    intro c member
    apply decide_eq_true
    rintro rfl
    exact t.date.letter_notMem_text member
  rw [datePart, millisecondText, List.append_assoc, List.append_assoc,
    List.takeWhile_append_of_pos before]
  simp

end Instant

namespace Deletion

/-- A date has one text in the instants of its day and in a deletion. Its text in a filter
is that one in the years of four digits and in those from -1000 back, and in all other
years it is the text of no date at all. -/
theorem date_texts (d : Date) (f : Field) :
    (∀ t : Instant, t.date = d → Instant.datePart t.millisecondText = d.text) ∧
    Json.read? (holding f (.date d)).body =
      some (.object [("delete", .object [(f.name, .string (String.ofList d.text))])]) ∧
    (d.filterText = d.text ↔ Date.Standard d.year) ∧
    (¬ Date.Standard d.year → ∀ e : Date, d.filterText ≠ e.text) := by
  refine ⟨?_, read?_body _, ?_, ?_⟩
  · rintro t rfl
    exact t.datePart_millisecondText
  · rw [Date.filterText_eq_text_iff]
    exact and_iff_right rfl
  · intro other e same
    exact other ((Date.filterText_eq_text_iff d e).mp same).2

/-- The ides of March of the year -44. -/
theorem date_texts_apart :
    ∃ d : Date, d.year = -44 ∧ d.filterText = "-044-03-15".toList ∧
      d.text = "-0044-03-15".toList :=
  ⟨⟨-44, 3, 15, by decide⟩, rfl, by decide, by decide⟩

end Deletion
end Solr
